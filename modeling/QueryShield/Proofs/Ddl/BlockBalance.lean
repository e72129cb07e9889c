import Mathlib
import QueryShield.Proofs.Clause.Folding

/-!
# Closing phrases never outnumber `END` words

The balance check of a trigger (`TriggerText.check`) counts the `END` words of the statement,
takes away the phrases that close a block (`END IF`, `END WHILE`, `END LOOP`, `END REPEAT`,
`END CASE`), and compares what is left with the `BEGIN` words and the `CASE` expressions.  The
main result, `closingPhrases_le_countWord_end`, says that the subtraction never goes below zero,
for every text: each closing phrase starts at an `END` word of its own.

The argument reads the words two at a time.  A two-word phrase that `phrases` finds is a pair of
neighbouring words, the first `END` and the second the closing word, and the search moves past
both (`phrases_go_length_le_pairCount`).  Ignoring case the five closing words are five different
words, so a word is at most one of them (`closers_countP_le_one`): the pairs of all five kinds
together start at different `END` words (`closers_pairCount_le`).
-/

namespace QueryShield
namespace TriggerText

open Text

/-- The neighbouring words of a list where the first is `a` and the second `b`, counted. -/
def pairCount (a b : String) (xs : List Word) : Nat :=
  (xs.zip xs.tail).countP fun p => wordIs p.1 a && wordIs p.2 b

section Pairs

variable {a b : String}

@[simp] theorem pairCount_nil : pairCount a b [] = 0 := rfl

@[simp] theorem pairCount_singleton (x : Word) : pairCount a b [x] = 0 := rfl

theorem pairCount_cons_cons (x y : Word) (ys : List Word) :
    pairCount a b (x :: y :: ys) =
      pairCount a b (y :: ys) + if (wordIs x a && wordIs y b) = true then 1 else 0 := by
  simp [pairCount, List.countP_cons]

theorem pairCount_le_cons (x : Word) (xs : List Word) :
    pairCount a b xs ≤ pairCount a b (x :: xs) := by
  cases xs with
  | nil => simp
  | cons y ys => rw [pairCount_cons_cons]; omega

end Pairs

section Phrases

variable {t : List Char} {a b : String}

/-- A two-word phrase found at a word is that word and the next. -/
theorem fits_pair {x : Word} {rest : List Word} (h : phrases.fits t (x :: rest) [a, b] = true) :
    ∃ y ys, rest = y :: ys ∧ wordIs x a = true ∧ wordIs y b = true := by
  cases rest with
  | nil => simp [phrases.fits] at h
  | cons y ys =>
    -- the second word is matched by the one-word case, or by the general case with nothing after
    cases ys with
    | nil =>
      simp only [phrases.fits, List.isEmpty_cons, Bool.false_or, Bool.and_eq_true] at h
      exact ⟨y, [], rfl, h.1, h.2.2⟩
    | cons z zs =>
      simp only [phrases.fits, List.isEmpty_cons, List.isEmpty_nil, Bool.false_or, Bool.true_or,
        Bool.and_true, Bool.and_eq_true] at h
      exact ⟨y, z :: zs, rfl, h.1, h.2.2⟩

/-- The two-word phrases of a list of words are at most its neighbouring pairs of those words:
after a phrase the search goes on past its second word. -/
theorem phrases_go_length_le_pairCount (xs : List Word) :
    (phrases.go t [a, b] xs).length ≤ pairCount a b xs := by
  fun_induction phrases.go t [a, b] xs with
  | case1 => simp
  | case2 x rest hfits last ih =>
    obtain ⟨y, ys, rfl, hx, hy⟩ := fits_pair hfits
    have hmono := pairCount_le_cons (a := a) (b := b) y ys
    simp only [List.length_cons, List.length_nil, Nat.zero_add, Nat.add_one_sub_one,
      List.drop_succ_cons, List.drop_zero] at ih ⊢
    rw [pairCount_cons_cons, hx, hy, Bool.and_self, if_pos rfl]
    omega
  | case3 x rest _ ih => exact ih.trans (pairCount_le_cons x rest)

theorem phrases_pair_length_le (a b : String) (t : List Char) :
    (phrases t [a, b]).length ≤ pairCount a b (Screen.wordRuns t) :=
  phrases_go_length_le_pairCount _

end Phrases

section Closers

/-- Whether a word is `w` ignoring case is whether it folds to `w` in lower case. -/
theorem wordIs_iff {y : Word} {w : String} (hw : ∀ a ∈ w.toList, a.toNat < 128) :
    wordIs y w = true ↔ y.2.map foldKey = w.toList.map Char.toLower :=
  foldEqWord_iff hw

/-- A word is at most one of the words that close a block after `END`: ignoring case they are
five different words. -/
theorem closers_countP_le_one (y : Word) :
    ["IF", "WHILE", "LOOP", "REPEAT", "CASE"].countP (wordIs y ·) ≤ 1 := by
  have hascii : ∀ w ∈ ["IF", "WHILE", "LOOP", "REPEAT", "CASE"], ∀ a ∈ w.toList, a.toNat < 128 := by
    simp
  have hnodup : (["IF", "WHILE", "LOOP", "REPEAT", "CASE"].map
      fun w => w.toList.map Char.toLower).Nodup := by decide
  calc ["IF", "WHILE", "LOOP", "REPEAT", "CASE"].countP (wordIs y ·)
      = ["IF", "WHILE", "LOOP", "REPEAT", "CASE"].countP
          (fun w => w.toList.map Char.toLower == y.2.map foldKey) := by
        apply List.countP_congr
        intro w hw
        rw [wordIs_iff (hascii w hw), beq_iff_eq, eq_comm]
    _ = (["IF", "WHILE", "LOOP", "REPEAT", "CASE"].map
          fun w => w.toList.map Char.toLower).count (y.2.map foldKey) := by
        rw [List.count, List.countP_map]
        rfl
    _ ≤ 1 := List.nodup_iff_count_le_one.1 hnodup _

/-- A pair of neighbouring words closes at most one block, and only when the first is `END`. -/
theorem closers_pair_le (x y : Word) :
    ((if (wordIs x "END" && wordIs y "IF") = true then 1 else 0) +
      (if (wordIs x "END" && wordIs y "WHILE") = true then 1 else 0) +
      (if (wordIs x "END" && wordIs y "LOOP") = true then 1 else 0) +
      (if (wordIs x "END" && wordIs y "REPEAT") = true then 1 else 0) +
      (if (wordIs x "END" && wordIs y "CASE") = true then 1 else 0)) ≤
      if wordIs x "END" = true then 1 else 0 := by
  have hy := closers_countP_le_one y
  simp only [List.countP_cons, List.countP_nil] at hy
  cases wordIs x "END"
  · simp
  · simp only [Bool.true_and, if_true]
    omega

/-- The neighbouring pairs that close a block number at most the `END` words. -/
theorem closers_pairCount_le (xs : List Word) :
    pairCount "END" "IF" xs + pairCount "END" "WHILE" xs + pairCount "END" "LOOP" xs +
      pairCount "END" "REPEAT" xs + pairCount "END" "CASE" xs ≤ xs.countP (wordIs · "END") := by
  induction xs with
  | nil => simp
  | cons x xs ih =>
    cases xs with
    | nil => simp
    | cons y ys =>
      have hpair := closers_pair_le x y
      simp only [pairCount_cons_cons, List.countP_cons] at ih ⊢
      omega

end Closers

/-- In every text the phrases that close a block number at most the `END` words, so the
balance check's count of the `END`s left for `BEGIN` and `CASE` never stops at zero. -/
theorem closingPhrases_le_countWord_end (sql : List Char) :
    ["IF", "WHILE", "LOOP", "REPEAT", "CASE"].foldl
        (fun acc w => acc + (phrases sql ["END", w]).length) 0 ≤ countWord sql "END" := by
  have hif := phrases_pair_length_le "END" "IF" sql
  have hwhile := phrases_pair_length_le "END" "WHILE" sql
  have hloop := phrases_pair_length_le "END" "LOOP" sql
  have hrepeat := phrases_pair_length_le "END" "REPEAT" sql
  have hcase := phrases_pair_length_le "END" "CASE" sql
  have hpairs := closers_pairCount_le (Screen.wordRuns sql)
  simp only [List.foldl_cons, List.foldl_nil, Nat.zero_add]
  unfold countWord
  omega

end TriggerText
end QueryShield
