import Mathlib

/-! Words of a text: what lies between its blanks, and texts joined by single ones. -/
namespace Florid.Words

/-- `str.isspace` of one character. -/
def isSpace (c : Char) : Bool :=
  (9 ≤ c.toNat && c.toNat ≤ 13) || (0x1c ≤ c.toNat && c.toNat ≤ 0x20) ||
    [0x85, 0xa0, 0x1680, 0x2028, 0x2029, 0x202f, 0x205f, 0x3000].contains c.toNat ||
    (0x2000 ≤ c.toNat && c.toNat ≤ 0x200a)

/-- `text.split()` -/
def split (text : List Char) : List (List Char) := (text.splitOnP isSpace).filter (· ≠ [])

/-- `" ".join(words)` -/
def join : List (List Char) → List Char
  | [] => []
  | [word] => word
  | word :: rest => word ++ ' ' :: join rest

/-- `text.strip()` -/
def strip (text : List Char) : List Char := (text.dropWhile isSpace).rdropWhile isSpace

/-- Something to be told apart by blanks. -/
def Word (word : List Char) : Prop := word ≠ [] ∧ ∀ c ∈ word, isSpace c = false

theorem isSpace_ascii {c : Char} (low : 0x20 < c.toNat) (high : c.toNat < 0x85) :
    isSpace c = false := by
  simp only [isSpace, List.contains_cons, List.contains_nil, Bool.or_eq_false_iff,
    Bool.and_eq_false_iff, decide_eq_false_iff_not, beq_eq_false_iff_ne, and_true]
  omega

theorem split_join {words : List (List Char)} (plain : ∀ word ∈ words, Word word) :
    split (join words) = words := by
  induction words with
  | nil => decide
  | cons word rest ih =>
    obtain ⟨present, unblank⟩ := plain word List.mem_cons_self
    have following := ih fun word member => plain word (List.mem_cons_of_mem _ member)
    cases rest with
    | nil => simp [join, split, List.splitOnP_eq_singleton unblank, present]
    | cons next rest =>
      rw [join, split, List.splitOnP_append_cons_of_forall_mem unblank ' ' (by decide),
        List.filter_cons_of_pos (by simpa using present)]
      · exact congrArg (word :: ·) following
      · simp

end Florid.Words
