import Mathlib.Data.List.Basic

/-!
# Streams of words and their prefixes

A stream is a concatenation of words followed by a part of one more word.
Wherever it is cut, what lies before the cut is a number of whole words and a
part of the next one (`Segmentation.exists_cut`): the fact every reader of
such a stream in pieces rests on.
-/

namespace ChattingServer

namespace Segmentation

variable {α : Type} {u c w v : List α} {words : List (List α)}

/-- `c` is a part of `w` that lacks at least one element. -/
def PartOf (c w : List α) : Prop := c <+: w ∧ c.length < w.length

theorem PartOf.of_prefix {d : List α} (h : PartOf c w) (shorter : d <+: c) : PartOf d w :=
  ⟨shorter.trans h.1, Nat.lt_of_le_of_lt shorter.length_le h.2⟩

/-- A part of a word is not followed by its stream's next whole word. -/
theorem PartOf.not_append {rest : List α} (h : PartOf (w ++ rest) w) : False := by
  have := h.2
  rw [List.length_append] at this
  omega

/-- A prefix of a stream is whole words and a part of the word after them,
`w` being the word after the last. -/
theorem exists_cut {part : List α} (unfinished : PartOf part w)
    (cut : u <+: words.flatten ++ part) :
    ∃ done todo c, words = done ++ todo ∧ u = done.flatten ++ c ∧ PartOf c (todo.headD w) := by
  induction words generalizing u with
  | nil => exact ⟨[], [], u, rfl, rfl, unfinished.of_prefix cut⟩
  | cons v words ih =>
      rw [List.flatten_cons, List.append_assoc] at cut
      by_cases short : u.length < v.length
      · have inside : u <+: v :=
          List.prefix_of_prefix_length_le cut (List.prefix_append _ _) (Nat.le_of_lt short)
        exact ⟨[], v :: words, u, rfl, rfl, inside, short⟩
      · have whole : v <+: u :=
          List.prefix_of_prefix_length_le (List.prefix_append _ _) cut (Nat.le_of_not_lt short)
        obtain ⟨u', rfl⟩ := whole
        obtain ⟨done, todo, c, rfl, rfl, part'⟩ := ih ((List.prefix_append_right_inj v).mp cut)
        exact ⟨v :: done, todo, c, rfl, by rw [List.flatten_cons, List.append_assoc], part'⟩

/-- A part of the next word that is all there is left of the stream leaves no
word to come. -/
theorem eq_nil_of_rest {part : List α} (here : PartOf c (words.headD w))
    (all : c = words.flatten ++ part) : words = [] ∧ part = c := by
  cases words with
  | nil => exact ⟨rfl, all.symm⟩
  | cons v words =>
      rw [List.flatten_cons, List.append_assoc] at all
      subst all
      exact here.not_append.elim

end Segmentation

end ChattingServer
