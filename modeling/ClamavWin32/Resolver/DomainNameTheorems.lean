import ClamavWin32.Resolver.DomainName

/-!
# The wire format of names

* `labels`, `wireName`: the labels of a name, and the bytes that stand for it in a packet;
* `dn_comp_spec`: `dn_comp` writes the bytes of the wire format, or fails;
* `dn_expandLoop_labels`: `dn_expand` joins the labels it meets;
* `HostName`: names of non-empty labels that are short enough;
* `dn_expand_wireName`, `dn_expand_pointer`: `dn_expand` reads a name back, in place or
  through a pointer.
-/

namespace ClamavWin32
namespace Resolver

/-! ## Labels -/

/-- The labels of a name: what stands between its dots, without an empty last one. -/
def labels (name : CString) : List CString :=
  if (name.splitOn DOT).getLast? = some [] then (name.splitOn DOT).dropLast
  else name.splitOn DOT

/-- Labels with their lengths in front. -/
def encodeLabels (ls : List CString) : List UInt8 :=
  ls.flatMap fun l => UInt8.ofNat l.length :: l

/-- The bytes that stand for a name in a packet. -/
def wireName (name : CString) : List UInt8 := encodeLabels (labels name) ++ [0]

lemma encodeLabels_cons (l : CString) (ls : List CString) :
    encodeLabels (l :: ls) = UInt8.ofNat l.length :: l ++ encodeLabels ls := rfl

lemma length_encodeLabels_cons (l : CString) (ls : List CString) :
    (encodeLabels (l :: ls)).length = l.length + 1 + (encodeLabels ls).length := by
  rw [encodeLabels_cons, List.length_append, List.length_cons]

/-- Every label that is not empty takes two bytes. -/
lemma length_le_encodeLabels {ls : List CString} (hls : ∀ l ∈ ls, l ≠ []) :
    2 * ls.length ≤ (encodeLabels ls).length := by
  induction ls with
  | nil => exact le_refl 0
  | cons l ls ih =>
    have hpos : 0 < l.length := List.length_pos_iff.mpr (hls l List.mem_cons_self)
    have hrest := ih fun l' hl' => hls l' (List.mem_cons_of_mem l hl')
    rw [length_encodeLabels_cons, List.length_cons]
    omega

lemma length_wireName (name : CString) :
    (wireName name).length = (encodeLabels (labels name)).length + 1 := by
  unfold wireName
  rw [List.length_append, List.length_singleton]

lemma labels_nil : labels [] = [] := rfl

/-- A name without dots is one label. -/
lemma labels_of_not_mem {name : CString} (hne : name ≠ []) (hdot : DOT ∉ name) :
    labels name = [name] := by
  have hlast : (name.splitOn DOT).getLast? ≠ some [] := by
    rw [List.splitOn_eq_singleton hdot, List.getLast?_singleton]
    exact fun h => hne (Option.some.inj h)
  unfold labels
  rw [if_neg hlast, List.splitOn_eq_singleton hdot]

/-- The first label ends at the first dot. -/
lemma labels_append_dot {label : CString} (hdot : DOT ∉ label) (rest : CString) :
    labels (label ++ DOT :: rest) = label :: labels rest := by
  obtain ⟨p, ps, hps⟩ := List.exists_cons_of_ne_nil (List.splitOn_ne_nil DOT rest)
  unfold labels
  rw [List.splitOn_append_cons_self_of_not_mem hdot, hps, List.getLast?_cons_cons]
  by_cases hlast : (p :: ps).getLast? = some []
  · rw [if_pos hlast, if_pos hlast]
    rfl
  · rw [if_neg hlast, if_neg hlast]

/-- A name has no dot, or there is a first one. -/
lemma exists_first_dot (name : CString) :
    DOT ∉ name ∨ ∃ label rest, DOT ∉ label ∧ name = label ++ DOT :: rest := by
  by_cases hdot : DOT ∈ name
  · obtain ⟨label, rest, rfl, hlabel⟩ := List.eq_append_cons_of_mem hdot
    exact Or.inr ⟨label, rest, hlabel, rfl⟩
  · exact Or.inl hdot

/-- The last piece of a name is empty if there is no character behind the last dot. -/
lemma getLast?_splitOn (dname : CString) :
    (dname.splitOn DOT).getLast? = some [] ↔ dname = [] ∨ dname.getLast? = some DOT := by
  induction dname with
  | nil => exact iff_of_true rfl (Or.inl rfl)
  | cons c cs ih =>
    obtain ⟨piece, pieces, hsplit⟩ := List.exists_cons_of_ne_nil (List.splitOn_ne_nil DOT cs)
    rw [hsplit] at ih
    rw [List.splitOn_cons_eq_if_modifyHead, hsplit]
    rcases eq_or_ne cs [] with rfl | hcs
    · -- a single character
      have hpiece : [] = piece ∧ [] = pieces := List.cons.inj hsplit
      rw [← hpiece.1, ← hpiece.2]
      by_cases hdot : c = DOT
      · rw [if_pos (by rw [hdot]; rfl), hdot]
        exact iff_of_true rfl (Or.inr rfl)
      · rw [if_neg (by rwa [beq_iff_eq])]
        refine iff_of_false nofun ?_
        rintro (h | h)
        · cases h
        · exact hdot (Option.some.inj h)
    · have hlast : (c :: cs).getLast? = cs.getLast? := by
        rw [List.getLast?_cons_of_ne_nil hcs]
      rw [hlast, or_iff_right (List.cons_ne_nil c cs)]
      rw [or_iff_right hcs] at ih
      by_cases hdot : c = DOT
      · rw [if_pos (by rw [hdot]; rfl), List.getLast?_cons_cons]
        exact ih
      · rw [if_neg (by rwa [beq_iff_eq]), List.modifyHead_cons, ← ih]
        rcases pieces with _ | ⟨p, ps⟩
        · -- a name without dots is its only piece
          refine iff_of_false nofun fun h => hcs ?_
          have hpiece : piece = [] := Option.some.inj h
          have hcons : [DOT].intercalate (cs.splitOn DOT) = cs := List.intercalate_splitOn DOT
          rw [← hcons, hsplit, hpiece]
          rfl
        · rw [List.getLast?_cons_cons, List.getLast?_cons_cons]

/-! ## Encoding -/

/-- What `dn_comp` returns and writes, from the labels that are left. -/
def compLabels : List CString → (space : ℤ) → (dest : List UInt8) → ℤ × List UInt8
  | [], space, dest =>
    if space < 1 then (-1, dest) else ((dest.length : ℤ) + 1, dest ++ [0])
  | l :: ls, space, dest =>
    if 63 < l.length then (-1, dest)
    else if space < l.length + 1 then (-1, dest)
    else compLabels ls (space - 1 - l.length) (dest ++ UInt8.ofNat l.length :: l)

/-- What the loop of `dn_comp` goes on with behind a label. -/
def nextLabel (src label : CString) : CString :=
  let src := src.drop label.length
  if src.head? = some DOT then src.drop 1 else src

/-- The first label of a name, and what is behind it. -/
lemma exists_first_label {src : CString} (hne : src ≠ []) :
    ∃ label, src.takeWhile (· ≠ DOT) = label ∧ labels src = label :: labels (nextLabel src label) ∧
      (nextLabel src label).length < src.length := by
  have hall : ∀ {label : CString}, DOT ∉ label → ∀ c ∈ label, decide (c ≠ DOT) = true := by
    intro label hlabel c hc
    rw [decide_eq_true_eq]
    rintro rfl
    exact hlabel hc
  rcases exists_first_dot src with hdot | ⟨label, rest, hlabel, rfl⟩
  · -- the last label
    have hnext : nextLabel src src = [] := by
      unfold nextLabel
      rw [List.drop_length]
      rfl
    have htake : (src ++ []).takeWhile (· ≠ DOT) = src ++ [] :=
      List.takeWhile_append_of_pos (hall hdot)
    rw [List.append_nil] at htake
    refine ⟨src, htake, ?_, ?_⟩
    · rw [hnext, labels_of_not_mem hne hdot]
      rfl
    · rw [hnext]
      exact List.length_pos_iff.mpr hne
  · have hnext : nextLabel (label ++ DOT :: rest) label = rest := by
      unfold nextLabel
      rw [List.drop_left]
      rfl
    refine ⟨label, ?_, ?_, ?_⟩
    · rw [List.takeWhile_append_of_pos (hall hlabel), List.takeWhile_cons_of_neg (by simp),
        List.append_nil]
    · rw [hnext, labels_append_dot hlabel]
    · rw [hnext, List.length_append, List.length_cons]
      omega

/-- The loop of `dn_comp` goes through the labels, and has enough rounds for it. -/
lemma dn_compLoop_eq (rounds : ℕ) (src : CString) (space : ℤ) (dest : List UInt8)
    (hrounds : src.length < rounds) :
    dn_compLoop rounds src space dest = compLabels (labels src) space dest := by
  induction rounds generalizing src space dest with
  | zero => omega
  | succ rounds ih =>
    unfold dn_compLoop
    by_cases hnil : src = []
    · rw [if_pos hnil, hnil]
      rfl
    · obtain ⟨label, htake, hlabels, hless⟩ := exists_first_label hnil
      rw [if_neg hnil, htake, hlabels, compLabels, ← ih _ _ _ (by omega)]
      rfl

/-- The labels fit a packet with so much space. -/
def Encodes (ls : List CString) (space : ℤ) : Prop :=
  (∀ l ∈ ls, l.length ≤ 63) ∧ (encodeLabels ls).length + 1 ≤ space

lemma compLabels_of_encodes {ls : List CString} {space : ℤ} (dest : List UInt8)
    (hls : Encodes ls space) :
    compLabels ls space dest =
      ((dest.length : ℤ) + (encodeLabels ls).length + 1, dest ++ encodeLabels ls ++ [0]) := by
  induction ls generalizing space dest with
  | nil =>
    have hspace : (([] : List UInt8).length : ℤ) + 1 ≤ space := hls.2
    rw [List.length_nil] at hspace
    show (if space < 1 then _ else _) = _
    rw [if_neg (by omega)]
    simp [encodeLabels]
  | cons l ls ih =>
    obtain ⟨hshort, hspace⟩ := hls
    rw [length_encodeLabels_cons] at hspace
    have hl := hshort l List.mem_cons_self
    unfold compLabels
    rw [if_neg (by omega), if_neg (by omega), ih]
    · rw [encodeLabels_cons, List.length_append, List.length_cons, List.length_append,
        List.length_cons]
      apply Prod.ext
      · push_cast
        omega
      · simp
    · exact ⟨fun l' hl' => hshort l' (List.mem_cons_of_mem l hl'), by omega⟩

/-- What is written before a failure stays in the space there is. -/
lemma compLabels_of_not_encodes {ls : List CString} {space : ℤ} (dest : List UInt8)
    (hls : ¬Encodes ls space) :
    ∃ bs, compLabels ls space dest = (-1, dest ++ bs) ∧ (bs = [] ∨ (bs.length : ℤ) ≤ space) := by
  induction ls generalizing space dest with
  | nil =>
    have hspace : space < 1 := by
      by_contra hspace
      refine hls ⟨nofun, ?_⟩
      show ((0 : ℕ) : ℤ) + 1 ≤ space
      omega
    refine ⟨[], ?_, Or.inl rfl⟩
    show (if space < 1 then _ else _) = _
    rw [if_pos hspace, List.append_nil]
  | cons l ls ih =>
    unfold compLabels
    by_cases hlong : 63 < l.length
    · exact ⟨[], by rw [if_pos hlong, List.append_nil], Or.inl rfl⟩
    · rw [if_neg hlong]
      by_cases hspace : space < l.length + 1
      · exact ⟨[], by rw [if_pos hspace, List.append_nil], Or.inl rfl⟩
      · -- this label fits, so what is left does not
        have hrest : ¬Encodes ls (space - 1 - l.length) := by
          intro henc
          apply hls
          constructor
          · intro l' hl'
            rcases List.mem_cons.mp hl' with rfl | hl'
            · omega
            · exact henc.1 l' hl'
          · have hlen := henc.2
            rw [length_encodeLabels_cons]
            omega
        obtain ⟨bs, heq, hbs⟩ := ih (dest ++ UInt8.ofNat l.length :: l) hrest
        rw [if_neg hspace]
        refine ⟨UInt8.ofNat l.length :: l ++ bs, ?_, Or.inr ?_⟩
        · rw [heq, List.append_assoc]
        · rw [List.length_append, List.length_cons]
          rcases hbs with rfl | hbs
          · show ((l.length + 1 + 0 : ℕ) : ℤ) ≤ space
            omega
          · omega

/-- **What `dn_comp` does**: it writes the wire format of the name, or it fails and what it
wrote stays in the space there is. -/
theorem dn_comp_spec (src : CString) (space : ℤ) :
    (Encodes (labels src) space ∧ dn_comp src space = (((wireName src).length : ℤ), wireName src)) ∨
      (¬Encodes (labels src) space ∧
        ∃ bs, dn_comp src space = (-1, bs) ∧ (bs = [] ∨ (bs.length : ℤ) ≤ space)) := by
  unfold dn_comp
  rw [dn_compLoop_eq _ _ _ _ (Nat.lt_succ_self _)]
  by_cases henc : Encodes (labels src) space
  · refine Or.inl ⟨henc, ?_⟩
    rw [compLabels_of_encodes [] henc, length_wireName, List.length_nil]
    apply Prod.ext
    · push_cast
      omega
    · rfl
  · obtain ⟨bs, heq, hbs⟩ := compLabels_of_not_encodes [] henc
    exact Or.inr ⟨henc, bs, heq, hbs⟩

lemma dn_comp_of_encodes {src : CString} {space : ℤ} (henc : Encodes (labels src) space) :
    dn_comp src space = (((wireName src).length : ℤ), wireName src) := by
  rcases dn_comp_spec src space with ⟨-, heq⟩ | ⟨hnot, -⟩
  · exact heq
  · exact absurd henc hnot

/-- `dn_comp` succeeds exactly on names that fit. -/
lemma dn_comp_nonneg {src : CString} {space : ℤ} :
    0 ≤ (dn_comp src space).1 ↔ Encodes (labels src) space := by
  rcases dn_comp_spec src space with ⟨henc, heq⟩ | ⟨hnot, bs, heq, -⟩
  · rw [heq]
    exact iff_of_true (Int.natCast_nonneg _) henc
  · rw [heq]
    exact iff_of_false (show ¬(0 : ℤ) ≤ -1 by decide) hnot

/-! ## Decoding -/

/-- A name with one more label. -/
def addLabel (dest l : CString) : CString := (if dest ≠ [] then dest ++ [DOT] else dest) ++ l

/-- A name with more labels. -/
def addLabels (dest : CString) (ls : List CString) : CString := ls.foldl addLabel dest

lemma addLabels_cons (dest l : CString) (ls : List CString) :
    addLabels dest (l :: ls) = addLabels (addLabel dest l) ls := rfl

/-- A name only grows. -/
lemma length_le_addLabels (dest : CString) (ls : List CString) :
    dest.length ≤ (addLabels dest ls).length := by
  induction ls generalizing dest with
  | nil => exact le_refl _
  | cons l ls ih =>
    have hle : dest.length ≤ (addLabel dest l).length := by
      unfold addLabel
      split_ifs <;> simp only [List.length_append] <;> omega
    exact hle.trans (ih _)

lemma addLabels_of_ne {dest : CString} (hdest : dest ≠ []) (ls : List CString) :
    addLabels dest ls = dest ++ ls.flatMap fun l => DOT :: l := by
  induction ls generalizing dest with
  | nil => exact (List.append_nil dest).symm
  | cons l ls ih =>
    have hadd : addLabel dest l = dest ++ DOT :: l := by
      unfold addLabel
      rw [if_pos hdest, List.append_assoc]
      rfl
    rw [addLabels_cons, hadd, ih (by simp), List.flatMap_cons, List.append_assoc]

/-- Non-empty labels are joined with dots. -/
lemma addLabels_nil {ls : List CString} (hls : ∀ l ∈ ls, l ≠ []) :
    addLabels [] ls = [DOT].intercalate ls := by
  rcases ls with _ | ⟨l, ls⟩
  · rfl
  · show addLabels l ls = _
    rw [addLabels_of_ne (hls l List.mem_cons_self)]
    clear hls
    induction ls generalizing l with
    | nil => simp
    | cons l' ls ih =>
      rw [List.intercalate_cons_cons, ← ih l', List.flatMap_cons]
      simp

/-- One turn of the loop of `dn_expand` at a label: it is added to the name, with a dot if
the name is not empty, unless there is no room for it. -/
lemma dn_expandLoop_label {packet rest : List UInt8} {src : ℕ} {room : ℤ} {l : CString}
    (rounds p : ℕ) (dest : CString) (len : ℤ)
    (hpacket : packet.drop p = UInt8.ofNat l.length :: (l ++ rest)) (hrest : rest ≠ [])
    (hne : l ≠ []) (hshort : l.length ≤ 63) :
    dn_expandLoop packet src room (rounds + 1) p dest len =
      if room ≤ (addLabel dest l).length then none
      else dn_expandLoop packet src room rounds (p + 1 + l.length) (addLabel dest l) len := by
  have hpos : 0 < l.length := List.length_pos_iff.mpr hne
  have hpos' : 0 < rest.length := List.length_pos_iff.mpr hrest
  have hnat : (UInt8.ofNat l.length).toNat = l.length := by
    rw [UInt8.toNat_ofNat']
    omega
  have hlow : UInt8.ofNat l.length &&& 0xc0 = 0 := by
    have hall : ∀ k : Fin 64, UInt8.ofNat k.val &&& 0xc0 = 0 := by decide
    exact hall ⟨l.length, by omega⟩
  have hzero : UInt8.ofNat l.length ≠ 0 := by
    intro h0
    rw [h0] at hnat
    exact absurd hnat (by show (0 : ℕ) ≠ _; omega)
  have hbyte : packet[p]? = some (UInt8.ofNat l.length) := by
    rw [← Nat.add_zero p, ← List.getElem?_drop, hpacket]
    rfl
  have hdrop : packet.drop (p + 1) = l ++ rest := by
    rw [← List.drop_drop, hpacket]
    rfl
  have hlength : packet.length - (p + 1) = l.length + rest.length := by
    rw [← List.length_drop, hdrop, List.length_append]
  -- the label always lies in the packet
  have hchecks : ((packet.length : ℤ) - ((p + 1 : ℕ) : ℤ) ≤ (l.length : ℤ) ∨
      room - (if dest ≠ [] then dest ++ [DOT] else dest).length ≤ (l.length : ℤ)) ↔
        room ≤ (addLabel dest l).length := by
    unfold addLabel
    rw [List.length_append]
    push_cast
    omega
  rw [dn_expandLoop, hbyte]
  simp only [hlow, hzero, ne_eq, not_true_eq_false, not_false_eq_true, if_false, if_true, hnat]
  simp only [ne_eq] at hchecks
  simp only [hchecks, hdrop, List.take_left]
  rfl

/-- What follows a label in a packet. -/
lemma drop_label {packet l rest : List UInt8} {p : ℕ}
    (hpacket : packet.drop p = UInt8.ofNat l.length :: (l ++ rest)) :
    packet.drop (p + 1 + l.length) = rest := by
  have hskip : p + 1 + l.length = p + (UInt8.ofNat l.length :: l).length := by
    rw [List.length_cons]
    omega
  rw [hskip, ← List.drop_drop, hpacket, ← List.cons_append, List.drop_left]

/-- **What `dn_expand` reads from labels**: it joins them. -/
lemma dn_expandLoop_labels {packet post : List UInt8} {src : ℕ} {room : ℤ} (ls : List CString)
    (rounds p : ℕ) (dest : CString) (len : ℤ)
    (hpacket : packet.drop p = encodeLabels ls ++ 0 :: post)
    (hls : ∀ l ∈ ls, l ≠ [] ∧ l.length ≤ 63) (hroom : (addLabels dest ls).length < room)
    (hrounds : ls.length < rounds) :
    dn_expandLoop packet src room rounds p dest len =
      some (if len < 0 then (p : ℤ) + (encodeLabels ls).length + 1 - src else len,
        addLabels dest ls) := by
  induction ls generalizing rounds p dest with
  | nil =>
    obtain ⟨rounds, rfl⟩ : ∃ k, rounds = k + 1 := ⟨rounds - 1, by simp at hrounds; omega⟩
    have hbyte : packet[p]? = some 0 := by
      rw [← Nat.add_zero p, ← List.getElem?_drop, hpacket]
      rfl
    unfold dn_expandLoop
    rw [hbyte]
    simp [encodeLabels, addLabels]
  | cons l ls ih =>
    obtain ⟨rounds, rfl⟩ : ∃ k, rounds = k + 1 := ⟨rounds - 1, by omega⟩
    rw [encodeLabels_cons, List.append_assoc, List.cons_append] at hpacket
    obtain ⟨hne, hshort⟩ := hls l List.mem_cons_self
    rw [addLabels_cons] at hroom
    have hgrow := length_le_addLabels (addLabel dest l) ls
    rw [dn_expandLoop_label rounds p dest len hpacket (by simp) hne hshort, if_neg (by omega), ih]
    · rw [length_encodeLabels_cons, addLabels_cons]
      congr 2
      split_ifs
      · push_cast
        omega
      · rfl
    · exact drop_label hpacket
    · exact fun l' hl' => hls l' (List.mem_cons_of_mem l hl')
    · exact hroom
    · rw [List.length_cons] at hrounds
      omega

/-! ## Names that can be looked up -/

/-- Labels of a name that can be looked up. -/
structure HostName where
  labels : List CString
  nonempty : ∀ l ∈ labels, l ≠ []
  short : ∀ l ∈ labels, l.length ≤ 63
  plain : ∀ l ∈ labels, DOT ∉ l ∧ 0 ∉ l
  fits : ([DOT].intercalate labels).length ≤ 253

/-- The name without a dot at its end. -/
def HostName.text (h : HostName) : CString := [DOT].intercalate h.labels

/-- The name as it is asked for. -/
def HostName.dname (h : HostName) (dot : Bool) : CString :=
  if dot then h.text ++ [DOT] else h.text

/-- The bytes that stand for the name in a packet. -/
def HostName.wire (h : HostName) : List UInt8 := encodeLabels h.labels ++ [0]

lemma HostName.text_eq (h : HostName) : h.text = addLabels [] h.labels :=
  (addLabels_nil h.nonempty).symm

/-- Each label takes a byte more than it has characters, and the last one no dot. -/
lemma length_intercalate (l : CString) (ls : List CString) :
    ([DOT].intercalate (l :: ls)).length + 1 = (encodeLabels (l :: ls)).length := by
  induction ls generalizing l with
  | nil => simp [encodeLabels]
  | cons l' ls ih =>
    rw [List.intercalate_cons_cons, length_encodeLabels_cons, ← ih l']
    simp only [List.length_append, List.length_singleton]
    omega

lemma HostName.length_encodeLabels_le (h : HostName) : (encodeLabels h.labels).length ≤ 254 := by
  have hfits := h.fits
  rcases hlabels : h.labels with _ | ⟨l, ls⟩
  · exact Nat.zero_le _
  · rw [hlabels] at hfits
    rw [← length_intercalate]
    omega

lemma labels_intercalate {ls : List CString} (hls : ∀ l ∈ ls, l ≠ [] ∧ DOT ∉ l) :
    labels ([DOT].intercalate ls) = ls ∧
      (ls ≠ [] → labels ([DOT].intercalate ls ++ [DOT]) = ls) := by
  induction ls with
  | nil => exact ⟨rfl, fun h => absurd rfl h⟩
  | cons l ls ih =>
    obtain ⟨⟨hne, hdot⟩, hrest⟩ := List.forall_mem_cons.mp hls
    obtain ⟨hplain, hdotted⟩ := ih hrest
    rcases ls with _ | ⟨l', ls⟩
    · rw [List.intercalate_singleton]
      refine ⟨labels_of_not_mem hne hdot, fun _ => ?_⟩
      rw [labels_append_dot hdot, labels_nil]
    · rw [List.intercalate_cons_cons]
      constructor
      · rw [List.append_assoc, List.singleton_append, labels_append_dot hdot, hplain]
      · intro _
        rw [List.append_assoc, List.append_assoc, List.singleton_append, labels_append_dot hdot,
          hdotted (List.cons_ne_nil _ _)]

lemma HostName.labels_text (h : HostName) : Resolver.labels h.text = h.labels :=
  (labels_intercalate fun l hl => ⟨h.nonempty l hl, (h.plain l hl).1⟩).1

/-- A dot at the end adds no label, unless there is none. -/
lemma HostName.labels_dname {h : HostName} {dot : Bool} (hroot : h.dname dot ≠ [DOT]) :
    Resolver.labels (h.dname dot) = h.labels := by
  unfold HostName.dname at hroot ⊢
  cases dot with
  | false => exact h.labels_text
  | true =>
    apply (labels_intercalate fun l hl => ⟨h.nonempty l hl, (h.plain l hl).1⟩).2
    intro hnone
    apply hroot
    simp [HostName.text, hnone]

lemma HostName.wireName_dname (h : HostName) (dot : Bool) :
    wireName (h.dname dot) = if h.dname dot = [DOT] then [0, 0] else h.wire := by
  by_cases hroot : h.dname dot = [DOT]
  · rw [if_pos hroot, hroot]
    rfl
  · rw [if_neg hroot, wireName, labels_dname hroot]
    rfl

lemma HostName.length_wire (h : HostName) :
    h.wire.length = (encodeLabels h.labels).length + 1 := by
  unfold HostName.wire
  rw [List.length_append, List.length_singleton]

/-- The loop of `dn_expand` reads a name where it begins. -/
lemma dn_expandLoop_wire (h : HostName) {packet post : List UInt8} {src p rounds : ℕ} {len : ℤ}
    (hpacket : packet.drop p = h.wire ++ post) (hrounds : h.labels.length < rounds) :
    dn_expandLoop packet src 254 rounds p [] len =
      some (if len < 0 then (p : ℤ) + h.wire.length - src else len, h.text) := by
  have hfits := h.fits
  have hlength := h.length_wire
  rw [HostName.wire, List.append_assoc, List.singleton_append] at hpacket
  rw [dn_expandLoop_labels h.labels rounds p [] len hpacket
    (fun l hl => ⟨h.nonempty l hl, h.short l hl⟩) _ hrounds, h.text_eq]
  · congr 2
    split_ifs
    · omega
    · rfl
  · rw [← h.text_eq]
    unfold HostName.text
    omega

/-- A packet with room for a name is long enough to go through its labels. -/
lemma HostName.labels_lt (h : HostName) {packet post : List UInt8} {p : ℕ}
    (hpacket : packet.drop p = h.wire ++ post) :
    p + 2 * h.labels.length + 1 ≤ packet.length := by
  have htwo := length_le_encodeLabels h.nonempty
  have hlength := congrArg List.length hpacket
  rw [List.length_drop, List.length_append, h.length_wire] at hlength
  omega

/-- `dn_expand` reads a name in place. -/
lemma dn_expand_wire (h : HostName) {packet post : List UInt8} {src : ℕ}
    (hpacket : packet.drop src = h.wire ++ post) :
    dn_expand packet src 256 = some ((h.wire.length : ℤ), h.text) := by
  have hlong := h.labels_lt hpacket
  unfold dn_expand
  rw [if_neg (by omega), if_pos (by decide), dn_expandLoop_wire h hpacket (by omega)]
  rw [if_pos (by decide), add_sub_cancel_left]

/-- `dn_expand` reads a name through a pointer behind it. -/
lemma dn_expand_pointer (h : HostName) {packet post rest : List UInt8} {src j : ℕ}
    (hpointer : packet.drop src = 0xc0 :: UInt8.ofNat j :: rest) (hj : j < 256)
    (hpacket : packet.drop j = h.wire ++ post) (hbehind : j + h.wire.length ≤ src) :
    dn_expand packet src 256 = some (2, h.text) := by
  have hlong := h.labels_lt hpacket
  have htwo := length_le_encodeLabels h.nonempty
  have hwire := h.length_wire
  have hlength := congrArg List.length hpointer
  rw [List.length_drop, List.length_cons, List.length_cons] at hlength
  have hfirst : packet[src]? = some 0xc0 := by
    rw [← Nat.add_zero src, ← List.getElem?_drop, hpointer]
    rfl
  have hsecond : packet[src + 1]? = some (UInt8.ofNat j) := by
    rw [← List.getElem?_drop, hpointer]
    rfl
  have htarget : ((0xc0 : UInt8) &&& 0x3f).toNat <<< 8 ||| (UInt8.ofNat j).toNat = j := by
    have hnat : (UInt8.ofNat j).toNat = j := by
      rw [UInt8.toNat_ofNat']
      omega
    rw [hnat]
    exact Nat.zero_or j
  obtain ⟨rounds, hrounds⟩ : ∃ k, (packet.length + 1) / 2 = k + 1 :=
    ⟨(packet.length + 1) / 2 - 1, by omega⟩
  unfold dn_expand
  rw [if_neg (by omega), if_pos (by decide), hrounds, dn_expandLoop, hfirst]
  simp only [hsecond, htarget]
  have hread : (if (-1 : ℤ) < 0 then (src : ℤ) + 2 - src else -1) = 2 := by
    rw [if_pos (by decide)]
    omega
  rw [if_pos (by decide), if_neg (by omega), hread, dn_expandLoop_wire h hpacket (by omega)]
  rfl

end Resolver
end ClamavWin32
