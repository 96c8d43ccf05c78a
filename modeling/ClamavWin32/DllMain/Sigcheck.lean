import ClamavWin32.Win32
import Mathlib.Data.Int.Notation

/-!
# The signature check of executables

`isIssuerTrusted`, `_sigcheck` and `cw_sigcheck` of `src/dllmain/sigcheck.c`.

The calls of the CryptoAPI, of the catalog and WinTrust functions and of `malloc` are an
`Environment`: a function of the arguments of each call, with its result and, where the
code reads it, the last error after the call. A call that the code makes in two ways (for
the size of a buffer, then for its contents) has a field for each. No call is made twice
in one run, so every combination of results is an environment.

`DWORD` and `LONG` are the same 32 bits here: the code compares them with constants only.
-/

namespace ClamavWin32
namespace Sigcheck

/-! ## The outside calls -/

def TRUST_E_NOSIGNATURE : ErrorCode := 0x800B0100

/-- What a call returned, and what `GetLastError` returns after it. -/
structure Outcome (α : Type*) where
  value : α
  lastError : ErrorCode

/-- The fields of `CMSG_SIGNER_INFO` that name the signing certificate. -/
structure SignerInfo where
  issuer : List UInt8
  serialNumber : List UInt8

/-- `WINTRUST_CATALOG_INFO` -/
structure WintrustCatalogInfo where
  pbCalculatedFileHash : List UInt8
  pcwszMemberTag : WString
  pcwszCatalogFilePath : WString
  pcwszMemberFilePath : WString

/-- `WINTRUST_FILE_INFO` -/
structure WintrustFileInfo where
  pcwszFilePath : WString
  hFile : Handle

/-- The union of `WINTRUST_DATA`, by `dwUnionChoice`. -/
inductive WintrustChoice where
  | catalog (pCatalog : WintrustCatalogInfo)
  | file (pFile : WintrustFileInfo)

/-- `dwStateAction` -/
inductive StateAction where
  | verify
  | close

/-- `WINTRUST_DATA`; its other fields are the same in every call. -/
structure WintrustData where
  dwStateAction : StateAction
  choice : WintrustChoice

structure Environment where
  getOsfhandle : ℤ → Handle
  cryptCATAdminAcquireContext : Outcome (Option Handle)
  cryptCATAdminCalcHashFromFileHandle : Handle → Outcome (Option (List UInt8))
  /-- The returned length and what the buffer holds; `0` is a failure, and so is a length
  that is not below the given size. -/
  getFinalPathNameByHandleW : Handle → ℕ → Outcome (ℕ × WString)
  cryptCATAdminEnumCatalogFromHash : Handle → List UInt8 → Outcome (Option Handle)
  /-- The path of the catalog file. -/
  cryptCATCatalogInfoFromContext : Handle → Option WString
  cryptCATAdminReleaseCatalogContext : Handle → Handle → Outcome Unit
  /-- The store and the message. -/
  cryptQueryObject : WString → Outcome (Option (Handle × Handle))
  cryptMsgGetParamSize : Handle → Outcome (Option ℕ)
  mallocSignerInfo : ℕ → Outcome Bool
  cryptMsgGetParam : Handle → ℕ → Option SignerInfo
  certFindCertificateInStore : Handle → SignerInfo → Option Handle
  certGetNameStringSize : Handle → ℕ
  mallocName : ℕ → Bool
  /-- The returned length and what the buffer holds. -/
  certGetNameString : Handle → ℕ → ℕ × WString
  winVerifyTrust : WintrustData → ErrorCode

/-! ## The code -/

/-- What a check returns, and the report of a false positive if it prints one: the file
and the name of the virus. -/
structure Result where
  status : ErrorCode
  falsePositive : Option (WString × String)

/-- The part of `_sigcheck` after its two branches. -/
def verify (env : Environment) (filename : WString) (virname : String) (warnfp : Bool)
    (choice : WintrustChoice) (trustIssuer : Bool) : Result :=
  let lsigned := env.winVerifyTrust ⟨.verify, choice⟩
  -- what the second call, with `WTD_STATEACTION_CLOSE`, returns is not used
  if trustIssuer = false then ⟨TRUST_E_NOSIGNATURE, none⟩
  else ⟨lsigned,
    if warnfp ∧ lsigned = ERROR_SUCCESS then some (filename, virname) else none⟩

end Sigcheck
end ClamavWin32
