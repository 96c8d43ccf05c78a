import Mathlib.Algebra.BigOperators.Group.List.Basic
import Mathlib.Algebra.Order.Ring.Nat
import Mathlib.Tactic.Common

/-!
# Words with quotes and escapes

A line of text is read as a list of words. Blanks separate words; a pair of quotes takes away
that meaning from the blanks between them; escapes stand for themselves, but for those before a
quote, which two by two stand for one, and of which an odd one makes the quote a character
like the others.

* `split`: the words of a line, read by `step` character by character;
* `weight_step_le`: a character adds at most one character or one word end to what is read, and
  a quote that begins a quoted part adds nothing;
* `split_intercalate_iff`: words that are written one after the other, with a blank between two
  of them, are read back if and only if none is empty, and no blank and no quote is in any.
-/

namespace ClamavWin32

/-- What a quote means right behind the one that ended a quoted part. -/
inductive DoubledQuote where
  /-- It begins the next quoted part. -/
  | begins
  /-- It stands for itself, and the quoted part goes on or not. -/
  | literal (goesOn : Bool)
  deriving DecidableEq, Repr

/-- The characters with a meaning. -/
structure Quoting (α : Type*) where
  blank : α → Bool
  quote : α
  escape : α
  doubled : DoubledQuote
  not_blank_quote : blank quote = false
  not_blank_escape : blank escape = false
  quote_ne_escape : quote ≠ escape

namespace Quoting

/-- Where the reader is. -/
inductive Mode where
  | plain
  | quoted
  /-- Right behind the end of a quoted part. -/
  | closed
  deriving DecidableEq, Repr

/-- The mode behind a character that is no quote. -/
def Mode.past : Mode → Mode
  | .plain => .plain
  | .quoted => .quoted
  | .closed => .plain

/-- What has been read. -/
structure Reader (α : Type*) where
  words : List (List α)
  /-- The word that is being read, `none` between two words. -/
  current : Option (List α)
  /-- The escapes behind it, whose meaning is not yet known. -/
  escapes : ℕ
  mode : Mode
  deriving DecidableEq, Repr

variable {α : Type*} (q : Quoting α)

def start : Reader α := ⟨[], none, 0, .plain⟩

/-- The end of a word, if there is one. -/
def endWord (r : Reader α) : Reader α :=
  match r.current with
  | none => { r with mode := .plain }
  | some word =>
    ⟨r.words ++ [word ++ List.replicate r.escapes q.escape], none, 0, .plain⟩

/-- The next character is a quote. -/
def stepQuote (r : Reader α) : Reader α :=
  let word := r.current.getD [] ++ List.replicate (r.escapes / 2) q.escape
  if r.escapes % 2 = 1 then ⟨r.words, some (word ++ [q.quote]), 0, r.mode.past⟩
  else
    match r.mode with
    | .plain => ⟨r.words, some word, 0, .quoted⟩
    | .quoted => ⟨r.words, some word, 0, .closed⟩
    | .closed =>
      match q.doubled with
      | .begins => ⟨r.words, some word, 0, .quoted⟩
      | .literal goesOn =>
        ⟨r.words, some (word ++ [q.quote]), 0, if goesOn then .quoted else .plain⟩

/-- The next character. -/
def step [DecidableEq α] (r : Reader α) (c : α) : Reader α :=
  if c = q.escape then ⟨r.words, some (r.current.getD []), r.escapes + 1, r.mode.past⟩
  else if c = q.quote then q.stepQuote r
  else if q.blank c ∧ r.mode ≠ .quoted then q.endWord r
  else
    ⟨r.words, some (r.current.getD [] ++ List.replicate r.escapes q.escape ++ [c]), 0,
      r.mode.past⟩

/-- The words of a line. -/
def split [DecidableEq α] (s : List α) : List (List α) := (q.endWord (s.foldl q.step start)).words

/-! ## No character is read twice -/

/-- The characters that have been read, and the ends of words. -/
def Reader.weight (r : Reader α) : ℕ :=
  (r.words.map (·.length + 1)).sum + (r.current.getD []).length + r.escapes

lemma weight_endWord_le (r : Reader α) : (q.endWord r).weight ≤ r.weight + 1 := by
  obtain ⟨words, _ | word, escapes, mode⟩ := r
  · exact Nat.le_succ _
  · simp [endWord, Reader.weight]
    omega

/-- An escaped quote costs its escape, a quote that begins or ends a quoted part itself. -/
lemma weight_stepQuote_le (r : Reader α) :
    (q.stepQuote r).weight ≤ r.weight + if r.mode = .closed then 1 else 0 := by
  obtain ⟨words, current, escapes, mode⟩ := r
  by_cases hodd : escapes % 2 = 1
  · simp [stepQuote, Reader.weight, hodd]
    omega
  · cases mode with
    | plain =>
      simp [stepQuote, Reader.weight, hodd]
      omega
    | quoted =>
      simp [stepQuote, Reader.weight, hodd]
      omega
    | closed =>
      cases hdoubled : q.doubled with
      | begins =>
        simp [stepQuote, Reader.weight, hodd, hdoubled]
        omega
      | literal goesOn =>
        simp [stepQuote, Reader.weight, hodd, hdoubled]
        omega

/-- Every word that was read has its end. -/
lemma sum_words_endWord (r : Reader α) :
    ((q.endWord r).words.map (·.length + 1)).sum ≤ r.weight + 1 := by
  apply le_trans _ (weight_endWord_le q r)
  rw [Reader.weight]
  omega

/-- The words have as many ends as there are separators, and one more. -/
lemma length_intercalate (sep : α) {args : List (List α)} (hargs : args ≠ []) :
    ([sep].intercalate args).length + 1 = (args.map (·.length + 1)).sum := by
  induction args with
  | nil => exact absurd rfl hargs
  | cons w args ih =>
    cases args with
    | nil => simp
    | cons w' args =>
      have hrest := ih (List.cons_ne_nil _ _)
      rw [List.intercalate_cons_cons, List.length_append, List.length_append, List.length_singleton,
        List.map_cons, List.sum_cons]
      omega

section

variable [DecidableEq α]

/-- **A character adds at most one** to what is read. -/
lemma weight_step_le (r : Reader α) (c : α) : (q.step r c).weight ≤ r.weight + 1 := by
  rw [step]
  by_cases hescape : c = q.escape
  · rw [if_pos hescape]
    simp [Reader.weight]
    omega
  rw [if_neg hescape]
  by_cases hquote : c = q.quote
  · rw [if_pos hquote]
    apply (weight_stepQuote_le q r).trans
    split <;> omega
  rw [if_neg hquote]
  by_cases hblank : q.blank c ∧ r.mode ≠ .quoted
  · rw [if_pos hblank]
    exact weight_endWord_le q r
  · rw [if_neg hblank]
    simp [Reader.weight]
    omega

lemma weight_foldl_le (s : List α) (r : Reader α) :
    (s.foldl q.step r).weight ≤ r.weight + s.length := by
  induction s generalizing r with
  | nil => exact le_rfl
  | cons c s ih =>
    have hstep := weight_step_le q r c
    have hrest := ih (q.step r c)
    rw [List.foldl_cons, List.length_cons]
    omega

end

/-! ## Lines without quotes -/

/-- A word that is written as it is. -/
def Word (w : List α) : Prop := w ≠ [] ∧ ∀ c ∈ w, q.blank c = false ∧ c ≠ q.quote

/-- The words that have been read, and what has been read of the next one, where the reader
has met no quote. -/
structure Plain (r : Reader α) (words : List (List α)) (text : List α) : Prop where
  mode : r.mode = .plain
  words_eq : r.words = words
  text_eq : (r.current.getD []) ++ List.replicate r.escapes q.escape = text
  between : r.current = none ↔ text = []

variable {q} {r : Reader α} {words : List (List α)} {text : List α}

lemma plain_start : q.Plain start [] [] := ⟨rfl, rfl, rfl, iff_of_true rfl rfl⟩

/-- What has been read of a word is one when it ends. -/
def endText (words : List (List α)) (text : List α) : List (List α) :=
  if text = [] then words else words ++ [text]

lemma Plain.endWord (h : q.Plain r words text) :
    q.Plain (q.endWord r) (endText words text) [] := by
  obtain ⟨hmode, hwords, htext, hbetween⟩ := h
  obtain ⟨rwords, current, escapes, mode⟩ := r
  cases current with
  | none =>
    have hnil : text = [] := hbetween.mp rfl
    subst hnil
    exact ⟨rfl, hwords, htext, iff_of_true rfl rfl⟩
  | some word =>
    have hnil : text ≠ [] := fun heq => Option.some_ne_none _ (hbetween.mpr heq)
    refine ⟨rfl, ?_, rfl, iff_of_true rfl rfl⟩
    rw [endText, if_neg hnil, ← htext, ← hwords]
    rfl

variable [DecidableEq α] {c : α}

/-- A character of a word. -/
lemma Plain.step_char (h : q.Plain r words text) (hblank : q.blank c = false)
    (hquote : c ≠ q.quote) : q.Plain (q.step r c) words (text ++ [c]) := by
  obtain ⟨hmode, hwords, htext, -⟩ := h
  have hnil : text ++ [c] ≠ [] := by simp
  rw [step]
  by_cases hescape : c = q.escape
  · rw [if_pos hescape]
    refine ⟨by rw [hmode]; rfl, hwords, ?_, iff_of_false (Option.some_ne_none _) hnil⟩
    show (some (r.current.getD [])).getD [] ++ List.replicate (r.escapes + 1) q.escape = _
    rw [Option.getD_some, List.replicate_succ', ← List.append_assoc, htext, hescape]
  · rw [if_neg hescape, if_neg hquote, if_neg (by simp [hblank])]
    refine ⟨by rw [hmode]; rfl, hwords, ?_, iff_of_false (Option.some_ne_none _) hnil⟩
    show (some (r.current.getD [] ++ List.replicate r.escapes q.escape ++ [c])).getD [] ++
      List.replicate 0 q.escape = _
    rw [htext, Option.getD_some, List.replicate_zero, List.append_nil]

lemma Plain.step_blank (h : q.Plain r words text) (hblank : q.blank c = true) :
    q.Plain (q.step r c) (endText words text) [] := by
  have hescape : c ≠ q.escape := by
    rintro rfl
    exact Bool.false_ne_true (q.not_blank_escape.symm.trans hblank)
  have hquote : c ≠ q.quote := by
    rintro rfl
    exact Bool.false_ne_true (q.not_blank_quote.symm.trans hblank)
  rw [step, if_neg hescape, if_neg hquote, if_pos ⟨hblank, by simp [h.mode]⟩]
  exact h.endWord

/-- A word is read as it is written. -/
lemma Plain.foldl_word (h : q.Plain r words text) {w : List α}
    (hw : ∀ c ∈ w, q.blank c = false ∧ c ≠ q.quote) :
    q.Plain (w.foldl q.step r) words (text ++ w) := by
  induction w generalizing r text with
  | nil =>
    rw [List.append_nil]
    exact h
  | cons c w ih =>
    obtain ⟨hblank, hquote⟩ := hw c List.mem_cons_self
    have hrest := ih (h.step_char hblank hquote) fun d hd => hw d (List.mem_cons_of_mem c hd)
    rw [List.append_assoc] at hrest
    exact hrest

/-- Words with a blank between two of them are read back. -/
lemma Plain.foldl_intercalate {sep : α} (hsep : q.blank sep = true) {args : List (List α)}
    (h : q.Plain r words []) (hargs : ∀ w ∈ args, q.Word w) :
    (q.endWord (([sep].intercalate args).foldl q.step r)).words = words ++ args := by
  induction args generalizing r words with
  | nil => simpa [endText] using h.endWord.words_eq
  | cons w args ih =>
    have hw := hargs w List.mem_cons_self
    have hword := h.foldl_word hw.2
    rw [List.nil_append] at hword
    cases args with
    | nil =>
      rw [List.intercalate_singleton]
      simpa [endText, hw.1] using hword.endWord.words_eq
    | cons w' args =>
      have hblank := hword.step_blank hsep
      rw [endText, if_neg hw.1] at hblank
      have hrest := ih hblank fun d hd => hargs d (List.mem_cons_of_mem w hd)
      rw [List.intercalate_cons_cons, List.foldl_append, List.foldl_append]
      rw [List.append_assoc] at hrest
      exact hrest

/-- The words of a line without quotes could have been written as they are. -/
lemma Plain.foldl_words (h : q.Plain r words text) {s : List α} (hs : q.quote ∉ s)
    (hwords : ∀ w ∈ words, q.Word w)
    (htext : ∀ c ∈ text, q.blank c = false ∧ c ≠ q.quote) :
    ∀ w ∈ (q.endWord (s.foldl q.step r)).words, q.Word w := by
  -- what is left at the end of the line is a word, too
  have hend : ∀ w ∈ endText words text, q.Word w := by
    rw [endText]
    by_cases hnil : text = []
    · rw [if_pos hnil]
      exact hwords
    · rw [if_neg hnil]
      intro w hw
      rcases List.mem_append.mp hw with hw | hw
      · exact hwords w hw
      · rw [List.mem_singleton.mp hw]
        exact ⟨hnil, htext⟩
  induction s generalizing r words text with
  | nil =>
    rw [List.foldl_nil, h.endWord.words_eq]
    exact hend
  | cons c s ih =>
    rw [List.mem_cons, not_or] at hs
    by_cases hblank : q.blank c = true
    · refine ih (h.step_blank hblank) hs.2 hend (by simp) ?_
      rw [endText, if_pos rfl]
      exact hend
    · have hchar := h.step_char (Bool.eq_false_of_not_eq_true hblank) (Ne.symm hs.1)
      have hnext : ∀ d ∈ text ++ [c], q.blank d = false ∧ d ≠ q.quote := by
        intro d hd
        rcases List.mem_append.mp hd with hd | hd
        · exact htext d hd
        · rw [List.mem_singleton.mp hd]
          exact ⟨Bool.eq_false_of_not_eq_true hblank, Ne.symm hs.1⟩
      refine ih hchar hs.2 hwords hnext ?_
      rw [endText, if_neg (by simp)]
      intro w hw
      rcases List.mem_append.mp hw with hw | hw
      · exact hwords w hw
      · rw [List.mem_singleton.mp hw]
        exact ⟨by simp, hnext⟩

/-! ## Words that are read back -/

/-- The reader is in no quoted part as long as it has met no quote. -/
lemma mode_foldl {s : List α} (hs : q.quote ∉ s) (hr : r.mode = .plain) :
    (s.foldl q.step r).mode = .plain := by
  induction s generalizing r with
  | nil => exact hr
  | cons c s ih =>
    rw [List.mem_cons, not_or] at hs
    apply ih hs.2
    rw [step]
    by_cases hescape : c = q.escape
    · rw [if_pos hescape, hr]
      rfl
    · rw [if_neg hescape, if_neg (Ne.symm hs.1)]
      by_cases hblank : q.blank c ∧ r.mode ≠ .quoted
      · rw [if_pos hblank, endWord]
        split <;> rfl
      · rw [if_neg hblank, hr]
        rfl

/-- A line with a quote in it reads shorter than it is. -/
lemma sum_split_le_of_quote_mem {s : List α} (hs : q.quote ∈ s) :
    ((q.split s).map (·.length + 1)).sum ≤ s.length := by
  obtain ⟨before, after, rfl, hbefore⟩ := List.eq_append_cons_of_mem hs
  have hmode : (before.foldl q.step start).mode = .plain := mode_foldl hbefore rfl
  have hread := weight_foldl_le q before start
  have hquote := weight_stepQuote_le q (before.foldl q.step start)
  have hrest := weight_foldl_le q after (q.stepQuote (before.foldl q.step start))
  have hend := sum_words_endWord q (after.foldl q.step (q.stepQuote (before.foldl q.step start)))
  have hstep : q.step (before.foldl q.step start) q.quote =
      q.stepQuote (before.foldl q.step start) := by
    rw [step, if_neg q.quote_ne_escape, if_pos rfl]
  have hstart : (start : Reader α).weight = 0 := rfl
  rw [hmode, if_neg (by decide)] at hquote
  rw [split, List.foldl_append, List.foldl_cons, hstep, List.length_append, List.length_cons]
  omega

/-- **Words are read back** from a line in which they stand as they are if and only if they are
not empty and have no blank and no quote in them. -/
theorem split_intercalate_iff {sep : α} (hsep : q.blank sep = true) (args : List (List α)) :
    q.split ([sep].intercalate args) = args ↔ ∀ w ∈ args, q.Word w := by
  constructor
  · intro hsplit
    have hquote : q.quote ∉ [sep].intercalate args := by
      intro hmem
      have hargs : args ≠ [] := by
        rintro rfl
        simp at hmem
      have hle := sum_split_le_of_quote_mem hmem
      have hlength := length_intercalate sep hargs
      rw [hsplit] at hle
      omega
    rw [← hsplit]
    exact plain_start.foldl_words hquote (by simp) (by simp)
  · intro hargs
    exact plain_start.foldl_intercalate hsep hargs

end Quoting
end ClamavWin32
