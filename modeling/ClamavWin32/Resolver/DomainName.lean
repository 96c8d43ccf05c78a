import ClamavWin32.Win32

/-!
# Domain names in DNS packets

`dn_comp` writes a name into a packet as labels with their lengths in front, and
`dn_expand` reads one from a packet and follows its pointers (`resolver.c`). Names are
strings without their terminator.
-/

namespace ClamavWin32
namespace Resolver

/-- `'.'` -/
def DOT : UInt8 := 46

/-- `dn_comp`, the loop over the labels, with what it wrote from `dest` on; what it returns,
and all it wrote. It takes as many rounds as there are labels. -/
def dn_compLoop : (rounds : ℕ) → (src : CString) → (space : ℤ) → (dest : List UInt8) →
    ℤ × List UInt8
  | 0, _, _, dest => (-1, dest)
  | rounds + 1, src, space, dest =>
    if src = [] then
      if space < 1 then (-1, dest) else ((dest.length : ℤ) + 1, dest ++ [0])
    else
      let label := src.takeWhile (· ≠ DOT)
      if 63 < label.length then (-1, dest)
      else if space < label.length + 1 then (-1, dest)
      else
        let src := src.drop label.length
        dn_compLoop rounds (if src.head? = some DOT then src.drop 1 else src)
          (space - 1 - label.length) (dest ++ UInt8.ofNat label.length :: label)

/-- `dn_comp`: what it returns, and what it wrote from `dest` on. -/
def dn_comp (src : CString) (space : ℤ) : ℤ × List UInt8 :=
  dn_compLoop (src.length + 1) src space []

/-- `dn_expand`, its loop: the length and the name, `none` for `-1`. The packet lies from
`base` to `end`, positions count from `base`, and `room` is `dend - dbegin`. -/
def dn_expandLoop (packet : List UInt8) (src : ℕ) (room : ℤ) :
    (rounds : ℕ) → (p : ℕ) → (dest : CString) → (len : ℤ) → Option (ℤ × CString)
  | 0, _, _, _ => none
  | rounds + 1, p, dest, len =>
    match packet[p]? with
    -- the position stays inside the packet
    | none => none
    | some b =>
      if b &&& 0xc0 ≠ 0 then
        match packet[p + 1]? with
        | none => none
        | some b1 =>
          let j := ((b &&& 0x3f).toNat <<< 8) ||| b1.toNat
          let len := if len < 0 then (p : ℤ) + 2 - src else len
          if packet.length ≤ j then none
          else dn_expandLoop packet src room rounds j dest len
      else if b ≠ 0 then
        let dest := if dest ≠ [] then dest ++ [DOT] else dest
        let j := b.toNat
        let p := p + 1
        if (packet.length : ℤ) - p ≤ j ∨ room - dest.length ≤ j then none
        else
          dn_expandLoop packet src room rounds (p + j) (dest ++ (packet.drop p).take j) len
      else some (if len < 0 then (p : ℤ) + 1 - src else len, dest)

/-- `dn_expand`; the loop is left after half as many rounds as the packet has bytes. -/
def dn_expand (packet : List UInt8) (src : ℕ) (space : ℤ) : Option (ℤ × CString) :=
  if src = packet.length ∨ space ≤ 0 then none
  else
    dn_expandLoop packet src (if 254 < space then 254 else space) ((packet.length + 1) / 2) src
      [] (-1)

end Resolver
end ClamavWin32
