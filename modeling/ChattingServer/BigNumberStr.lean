import Mathlib.Algebra.Group.Int.Defs
import Mathlib.Algebra.Group.Nat.Defs
import Mathlib.Tactic.Common

/-!
# Numbers with separators

`GetBigNumberStr` writes a number in groups of three digits, the highest that
is not zero first.  A group is written when the rest of the number reaches it,
so one that is zero behind a higher group is left out, comma and all: the
digits are those of the number only if no group between the first and the last
is zero (`getBigNumberStr_faithful_iff`).
-/

namespace ChattingServer

namespace CpuMonitor

/-- `%llu`. -/
def llu (n : Nat) : List Char := Nat.toDigits 10 n

/-- `%03llu`. -/
def llu03 (n : Nat) : List Char := List.replicate (3 - (llu n).length) '0' ++ llu n

/-- `swprintf_s(s + idx, size - idx, ...)` behind the `idx` characters of `s`:
none when the text does not fit with its terminator, at which the run-time
library ends the process. -/
def swprintf_s (size : Nat) (s text : List Char) : Option (List Char) :=
  if s.length + text.length < size then some (s ++ text) else none

/-- A group of a number that reaches `unit`, with its comma: the next one is not
the first any more. -/
def putGroup (size : Nat) (s : List Char) (first : Bool) (value unit : Nat) :
    Option (List Char × Bool) :=
  if value ≥ unit then
    (swprintf_s size s ((if first then llu (value / unit) else llu03 (value / unit)) ++ [','])).map
      fun s => (s, false)
  else
    some (s, first)

/-- `GetBigNumberStr`, into a buffer of some size. -/
def bigNumberStr (value : Int) (size : Nat) : Option (List Char) :=
  if value < 0 then
    swprintf_s size [] (toString value).toList
  else do
    let value := value.toNat
    let (s, first) ← putGroup size [] true value 1000000000
    let value := value % 1000000000
    let (s, first) ← putGroup size s first value 1000000
    let value := value % 1000000
    let (s, first) ← putGroup size s first value 1000
    swprintf_s size s (if first then llu (value % 1000) else llu03 (value % 1000))

/-- `GetBigNumberStr`: what `s` points to afterwards, if it returns. -/
def getBigNumberStr (value : Int) (s : Option (List Char)) (size : Int) :
    Option (Option (List Char)) :=
  match s with
  | none => some none
  | some old => if size ≤ 0 then some (some old) else (bigNumberStr value size.toNat).map some

/-- The number one reads when one passes over the commas. -/
def reading (s : List Char) : Nat := Nat.ofDigitChars 10 (s.filter (· ≠ ',')) 0

/-! ## Groups -/

theorem filter_digits {s : List Char} (digits : ∀ c ∈ s, c.isDigit) :
    s.filter (· ≠ ',') = s := by
  rw [List.filter_eq_self]
  intro c listed
  rw [decide_eq_true_eq]
  rintro rfl
  exact absurd (digits _ listed) (by decide)

theorem isDigit_llu {n : Nat} {c : Char} (listed : c ∈ llu n) : c.isDigit :=
  Nat.isDigit_of_mem_toDigits (by decide) (by decide) listed

theorem isDigit_llu03 {n : Nat} {c : Char} (listed : c ∈ llu03 n) : c.isDigit := by
  rcases List.mem_append.mp listed with zero | digit
  · rw [List.eq_of_mem_replicate zero]
    decide
  · exact isDigit_llu digit

theorem length_llu {n k : Nat} (bound : n < 10 ^ k) (positive : 0 < k) : (llu n).length ≤ k :=
  (Nat.length_toDigits_le_iff (by decide) positive).mpr bound

theorem length_llu03 {n : Nat} (bound : n < 1000) : (llu03 n).length = 3 := by
  have short := length_llu (k := 3) bound (by decide)
  rw [llu03, List.length_append, List.length_replicate]
  omega

/-- The first group is read as it is. -/
theorem reading_llu (n : Nat) (comma : List Char) (only : comma.filter (· ≠ ',') = []) :
    reading (llu n ++ comma) = n := by
  rw [reading, List.filter_append, filter_digits fun _ => isDigit_llu, only, List.append_nil]
  exact Nat.ofDigitChars_ten_toDigits

/-- A further group takes three places. -/
theorem reading_append_llu03 (s : List Char) {n : Nat} (bound : n < 1000) (comma : List Char)
    (only : comma.filter (· ≠ ',') = []) :
    reading (s ++ (llu03 n ++ comma)) = 1000 * reading s + n := by
  have value : Nat.ofDigitChars 10 (llu03 n) 0 = n := by
    rw [llu03, Nat.ofDigitChars_append, Nat.ofDigitChars_replicate_zero, Nat.mul_zero]
    exact Nat.ofDigitChars_ten_toDigits
  rw [reading, List.filter_append, List.filter_append, only, List.append_nil,
    filter_digits fun _ => isDigit_llu03, Nat.ofDigitChars_append,
    Nat.ofDigitChars_eq_ofDigitChars_zero, length_llu03 bound, value]
  rfl

/-- The groups written so far, and that at least one has been. -/
structure Shows (s : List Char) (first : Bool) (n len : Nat) : Prop where
  reads : reading s = n
  short : s.length ≤ len
  none : first = true → s = []

theorem swprintf_s_ok {size : Nat} {s text : List Char} (room : s.length + text.length < size) :
    swprintf_s size s text = some (s ++ text) :=
  if_pos room

/-- The number read so far and a group behind it, if there is one. -/
def shown (m value unit : Nat) : Nat := if value ≥ unit then 1000 * m + value / unit else m

section Groups

variable {n m len : Nat} {s : List Char} {first : Bool}

/-- Three digits, or fewer where nothing has been written, behind the groups
written so far. -/
theorem Shows.digits (shows : Shows s first m len) (bound : n < 1000) (comma : List Char)
    (only : comma.filter (· ≠ ',') = []) :
    reading (s ++ ((if first then llu n else llu03 n) ++ comma)) = 1000 * m + n ∧
      (if first then llu n else llu03 n).length ≤ 3 := by
  cases first with
  | true =>
      have empty := shows.none rfl
      have value := shows.reads
      rw [empty] at value ⊢
      rw [← value]
      exact ⟨(reading_llu n comma only).trans (Nat.zero_add n).symm,
        length_llu (k := 3) bound (by decide)⟩
  | false =>
      rw [← shows.reads]
      exact ⟨reading_append_llu03 s bound comma only, Nat.le_of_eq (length_llu03 bound)⟩

/-- The group a number starts with may be longer than three digits. -/
theorem putGroup_first (size value unit : Nat) (bound : value / unit < 10 ^ 10) (room : 23 ≤ size) :
    ∃ s first, putGroup size [] true value unit = some (s, first) ∧
      Shows s first (shown 0 value unit) 11 := by
  unfold putGroup shown
  by_cases reached : value ≥ unit
  · have length := length_llu bound (by decide)
    rw [if_pos reached, if_pos reached, if_pos rfl, swprintf_s_ok (by simp; omega), Nat.mul_zero,
      Nat.zero_add]
    refine ⟨llu (value / unit) ++ [','], false, rfl, reading_llu _ _ rfl, ?_, nofun⟩
    rw [List.length_append, List.length_singleton]
    exact Nat.succ_le_succ length
  · rw [if_neg reached, if_neg reached]
    exact ⟨[], true, rfl, rfl, Nat.zero_le _, fun _ => rfl⟩

/-- A group behind the groups written so far. -/
theorem Shows.putGroup (shows : Shows s first m len) (size value unit : Nat)
    (bound : value / unit < 1000) (room : len + 4 < size) :
    ∃ s' first', putGroup size s first value unit = some (s', first') ∧
      Shows s' first' (shown m value unit) (len + 4) := by
  unfold CpuMonitor.putGroup shown
  by_cases reached : value ≥ unit
  · obtain ⟨number, length⟩ := shows.digits bound [','] rfl
    have before := shows.short
    rw [if_pos reached, if_pos reached, swprintf_s_ok]
    · refine ⟨_, false, rfl, number, ?_, nofun⟩
      rw [List.length_append, List.length_append, List.length_singleton]
      omega
    · rw [List.length_append, List.length_singleton]
      omega
  · rw [if_neg reached, if_neg reached]
    exact ⟨s, first, rfl, shows.reads, Nat.le_trans shows.short (Nat.le_add_right _ _),
      shows.none⟩

/-- The buffer holds every number, and this is what is read of it. -/
theorem bigNumberStr_ok (value size : Nat) (range : value < 2 ^ 63) (room : 23 ≤ size) :
    ∃ text, bigNumberStr value size = some text ∧
      reading text =
        1000 * shown (shown (shown 0 value 1000000000) (value % 1000000000) 1000000)
          (value % 1000000000 % 1000000) 1000 + value % 1000000000 % 1000000 % 1000 := by
  obtain ⟨s1, first1, put1, shows1⟩ :=
    putGroup_first size value 1000000000 (by omega) room
  obtain ⟨s2, first2, put2, shows2⟩ :=
    shows1.putGroup size (value % 1000000000) 1000000 (by omega) (by omega)
  obtain ⟨s3, first3, put3, shows3⟩ :=
    shows2.putGroup size (value % 1000000000 % 1000000) 1000 (by omega) (by omega)
  obtain ⟨number, length⟩ :=
    shows3.digits (n := value % 1000000000 % 1000000 % 1000) (by omega) [] rfl
  rw [List.append_nil] at number
  have before := shows3.short
  refine ⟨_, ?_, number⟩
  rw [bigNumberStr, if_neg (by omega)]
  simp only [Int.toNat_natCast, bind, put1, put2, put3, Option.bind_some]
  exact swprintf_s_ok (by omega)

end Groups

/-- No group is zero between the first and the last. -/
def NoGap (value : Int) : Prop :=
  value < 1000000 ∨ (value < 1000000000 ∧ 1000 ≤ value % 1000000) ∨
    (1000000 ≤ value % 1000000000 ∧ 1000 ≤ value % 1000000)

instance (value : Int) : Decidable (NoGap value) :=
  inferInstanceAs (Decidable (_ ∨ _))

/-- **Numbers with separators.**  What `GetBigNumberStr` writes is read as the
number it was given exactly when none of its inner groups is zero. -/
theorem getBigNumberStr_faithful_iff (value : Int) (natural : 0 ≤ value) (range : value < 2 ^ 63)
    (old : List Char) (size : Int) (room : 23 ≤ size) :
    (∃ text, getBigNumberStr value (some old) size = some (some text) ∧
      (reading text : Int) = value) ↔ NoGap value := by
  obtain ⟨v, rfl⟩ := Int.eq_ofNat_of_zero_le natural
  obtain ⟨text, written, number⟩ := bigNumberStr_ok v size.toNat
    (by exact_mod_cast range) (by omega)
  have returns : getBigNumberStr v (some old) size = some (some text) := by
    rw [getBigNumberStr, if_neg (by omega), written]
    rfl
  have gaps : reading text = v ↔ NoGap v := by
    rw [number]
    unfold shown NoGap
    split_ifs <;> omega
  rw [← gaps]
  constructor
  · intro faithful
    obtain ⟨text', returns', same⟩ := faithful
    cases returns.symm.trans returns'
    exact_mod_cast same
  · intro same
    exact ⟨text, returns, by exact_mod_cast same⟩

/-- A million and a thousand is written with all its digits. -/
theorem getBigNumberStr_faithful_million :
    ∃ text, getBigNumberStr 1001000 (some []) 23 = some (some text) ∧
      (reading text : Int) = 1001000 :=
  (getBigNumberStr_faithful_iff 1001000 (by decide) (by decide) [] 23 (by decide)).mpr (by decide)

/-- A thousand million is written as a thousand is. -/
theorem getBigNumberStr_thousand_million :
    getBigNumberStr 1000000000 (some []) 23 = some (some ['1', ',', '0', '0', '0']) ∧
      getBigNumberStr 1000 (some []) 23 = some (some ['1', ',', '0', '0', '0']) ∧
      reading ['1', ',', '0', '0', '0'] = 1000 := by
  decide +kernel

end CpuMonitor

end ChattingServer
