import ClamavWin32.Resolver.DomainNameTheorems
import Mathlib.Data.List.Basic

/-!
# Which names survive `dn_comp` and `dn_expand`

`dn_comp` looks at the length of each label and at the space that is left. It does not look
for empty labels, whose length byte ends the name for `dn_expand`, nor at the length of the
whole name, of which `dn_expand` writes 253 characters at most.

* `intercalate_labels`: the labels of a name are the name without its trailing dot;
* `dn_expandLoop_full`: `dn_expand` fails where the name gets too long;
* `decodes_iff`: the names that are read back.
-/

namespace ClamavWin32
namespace Resolver

/-- The name without one dot at its end. -/
def withoutDot (name : CString) : CString :=
  if name.getLast? = some DOT then name.dropLast else name

/-- What `dn_comp` returns is the length of what it wrote, at least one byte and no more
than there is space for, and `dn_expand` reads the name back from these bytes. -/
def Decodes (src : CString) (space : ℤ) : Prop :=
  1 ≤ (dn_comp src space).1 ∧ (dn_comp src space).1 ≤ space ∧
    ((dn_comp src space).2.length : ℤ) = (dn_comp src space).1 ∧
    dn_expand (dn_comp src space).2 0 256 = some ((dn_comp src space).1, withoutDot src)

/-- No label of the name is empty, and without its trailing dot it is short enough. -/
def Decodable (name : CString) : Prop :=
  (∀ l ∈ labels name, l ≠ []) ∧ (withoutDot name).length ≤ 253

/-- An empty piece at the end leaves the dot in front of it. -/
lemma intercalate_concat_nil {ls : List CString} (hne : ls ≠ []) :
    [DOT].intercalate (ls ++ [[]]) = [DOT].intercalate ls ++ [DOT] := by
  induction ls with
  | nil => exact absurd rfl hne
  | cons l ls ih =>
    rcases ls with _ | ⟨l', ls⟩
    · simp
    · rw [List.cons_append, List.cons_append, List.intercalate_cons_cons, ← List.cons_append,
        ih (List.cons_ne_nil l' ls), List.intercalate_cons_cons, List.append_assoc,
        List.append_assoc, List.append_assoc]

instance (name : CString) : Decidable (Decodable name) :=
  inferInstanceAs (Decidable (_ ∧ _))

/-- The labels with dots between them are the name without its trailing dot. -/
lemma intercalate_labels (name : CString) :
    [DOT].intercalate (labels name) = withoutDot name := by
  have hjoin : [DOT].intercalate (name.splitOn DOT) = name := List.intercalate_splitOn DOT
  have hlast := getLast?_splitOn name
  unfold labels withoutDot
  by_cases hempty : (name.splitOn DOT).getLast? = some []
  · rw [if_pos hempty]
    rcases hlast.mp hempty with rfl | hdot
    · rfl
    · rw [if_pos hdot]
      -- the last piece is empty, so the dot in front of it ends the name
      have hsplit : name.splitOn DOT = (name.splitOn DOT).dropLast ++ [[]] :=
        (List.dropLast_append_getLast? [] hempty).symm
      have hne : (name.splitOn DOT).dropLast ≠ [] := by
        intro hnil
        rw [hsplit, hnil] at hjoin
        rw [← hjoin] at hdot
        cases hdot
      rw [hsplit, intercalate_concat_nil hne] at hjoin
      conv_rhs => rw [← hjoin]
      rw [List.dropLast_concat]
  · rw [if_neg hempty, if_neg fun hdot => hempty (hlast.mpr (Or.inr hdot)), hjoin]

/-- **`dn_expand` fails** where the labels do not fit the room. -/
lemma dn_expandLoop_full {packet post : List UInt8} {src : ℕ} {room : ℤ} (ls : List CString)
    (rounds p : ℕ) (dest : CString) (len : ℤ)
    (hpacket : packet.drop p = encodeLabels ls ++ 0 :: post)
    (hls : ∀ l ∈ ls, l ≠ [] ∧ l.length ≤ 63) (hdest : dest.length < room)
    (hroom : room ≤ (addLabels dest ls).length) :
    dn_expandLoop packet src room rounds p dest len = none := by
  induction ls generalizing rounds p dest with
  | nil =>
    have hempty : addLabels dest [] = dest := rfl
    rw [hempty] at hroom
    omega
  | cons l ls ih =>
    cases rounds with
    | zero => rfl
    | succ rounds =>
      rw [encodeLabels_cons, List.append_assoc, List.cons_append] at hpacket
      obtain ⟨hne, hshort⟩ := hls l List.mem_cons_self
      rw [dn_expandLoop_label rounds p dest len hpacket (by simp) hne hshort]
      by_cases hfull : room ≤ (addLabel dest l).length
      · rw [if_pos hfull]
      · rw [if_neg hfull]
        apply ih
        · exact drop_label hpacket
        · exact fun l' hl' => hls l' (List.mem_cons_of_mem l hl')
        · omega
        · exact hroom

/-- `dn_expand` at the beginning of a packet that begins with labels: it joins them, or it
fails if they are too long. -/
lemma dn_expand_labels {packet post : List UInt8} (ls : List CString)
    (hpacket : packet = encodeLabels ls ++ 0 :: post) (hls : ∀ l ∈ ls, l ≠ [] ∧ l.length ≤ 63) :
    dn_expand packet 0 256 =
      if (addLabels [] ls).length ≤ 253 then
        some (((encodeLabels ls).length : ℤ) + 1, addLabels [] ls)
      else none := by
  have hdrop : packet.drop 0 = encodeLabels ls ++ 0 :: post := hpacket
  have hlength : packet.length = (encodeLabels ls).length + (post.length + 1) := by
    rw [hpacket, List.length_append, List.length_cons]
  have htwo := length_le_encodeLabels fun l hl => (hls l hl).1
  unfold dn_expand
  rw [if_neg (by omega), if_pos (by decide)]
  by_cases hfits : (addLabels [] ls).length ≤ 253
  · rw [if_pos hfits,
      dn_expandLoop_labels ls _ 0 [] (-1) hdrop hls (by omega) (by omega)]
    simp
  · rw [if_neg hfits, dn_expandLoop_full ls _ 0 [] (-1) hdrop hls (by decide) (by omega)]

lemma encodeLabels_append (ls ms : List CString) :
    encodeLabels (ls ++ ms) = encodeLabels ls ++ encodeLabels ms := List.flatMap_append

/-- **The names that are read back**: whatever `dn_comp` accepts is read back by `dn_expand`
if and only if it has no empty label and, without its trailing dot, 253 characters at most. -/
theorem decodes_iff {src : CString} {space : ℤ} (hcomp : 0 ≤ (dn_comp src space).1) :
    Decodes src space ↔ Decodable src := by
  obtain ⟨hshort, hspace⟩ := dn_comp_nonneg.mp hcomp
  have hlength := length_wireName src
  have hjoin := intercalate_labels src
  unfold Decodes Decodable
  rw [dn_comp_of_encodes ⟨hshort, hspace⟩]
  dsimp only
  by_cases hempty : [] ∈ labels src
  · -- the name ends for `dn_expand` at its first empty label
    refine iff_of_false ?_ fun h => h.1 [] hempty rfl
    rintro ⟨-, -, -, hexpand⟩
    obtain ⟨ls, ms, hlabels, hfirst⟩ := List.eq_append_cons_of_mem hempty
    have hpacket : wireName src = encodeLabels ls ++ 0 :: (encodeLabels ms ++ [0]) := by
      unfold wireName
      rw [hlabels, encodeLabels_append, List.append_assoc]
      rfl
    have hls : ∀ l ∈ ls, l ≠ [] ∧ l.length ≤ 63 := by
      intro l hl
      refine ⟨fun hnil => hfirst (hnil ▸ hl), hshort l ?_⟩
      rw [hlabels]
      exact List.mem_append_left _ hl
    rw [dn_expand_labels ls hpacket hls] at hexpand
    split_ifs at hexpand
    have hread : ((encodeLabels ls).length : ℤ) + 1 = ((wireName src).length : ℤ) :=
      (Prod.mk.inj (Option.some.inj hexpand)).1
    rw [hpacket] at hread
    simp only [List.length_append, List.length_cons] at hread
    omega
  · have hnonempty : ∀ l ∈ labels src, l ≠ [] := fun l hl hnil => hempty (hnil ▸ hl)
    have hpacket : wireName src = encodeLabels (labels src) ++ 0 :: [] := rfl
    rw [dn_expand_labels (labels src) hpacket fun l hl => ⟨hnonempty l hl, hshort l hl⟩,
      addLabels_nil hnonempty, hjoin]
    by_cases hfits : (withoutDot src).length ≤ 253
    · rw [if_pos hfits]
      refine iff_of_true ⟨by omega, by omega, rfl, ?_⟩ ⟨hnonempty, hfits⟩
      rw [hlength]
      rfl
    · rw [if_neg hfits]
      exact iff_of_false (fun h => by cases h.2.2.2) fun h => hfits h.2

/-- The name `a.b.` is read back as `a.b`. -/
theorem decodes_sample :
    0 ≤ (dn_comp [97, 46, 98, 46] 64).1 ∧ Decodes [97, 46, 98, 46] 64 :=
  ⟨by decide, (decodes_iff (by decide)).mpr (by decide)⟩

/-- Of `a..b`, six bytes, only `a` is read back, from three bytes. -/
theorem doubled_dot_not_decodes :
    dn_comp [97, 46, 46, 98] 64 = (6, [1, 97, 0, 1, 98, 0]) ∧
      dn_expand [1, 97, 0, 1, 98, 0] 0 256 = some (3, [97]) ∧ ¬Decodes [97, 46, 46, 98] 64 := by
  have hcomp : dn_comp [97, 46, 46, 98] 64 = (6, [1, 97, 0, 1, 98, 0]) := by decide
  have hexpand : dn_expand [1, 97, 0, 1, 98, 0] 0 256 = some (3, [97]) := by decide
  refine ⟨hcomp, hexpand, ?_⟩
  rintro ⟨-, -, -, hdecoded⟩
  rw [hcomp, hexpand] at hdecoded
  cases hdecoded

end Resolver
end ClamavWin32
