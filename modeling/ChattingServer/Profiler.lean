import ChattingServer.Foundation.RunningExtreme
import ChattingServer.Types
import Mathlib.Algebra.BigOperators.Group.List.Basic
import Mathlib.Algebra.Order.Field.Basic
import Mathlib.Algebra.Order.Field.Rat
import Mathlib.Data.Int.ConditionallyCompleteOrder
import Mathlib.Data.List.Induction
import Mathlib.Data.Rat.Cast.Order
import Mathlib.Tactic.NormNum
import Mathlib.Tactic.Positivity

/-!
# The profiler

One thread's samples, and what `ProfileBegin` and `ProfileEnd` do to the one
under a name.  Arithmetic is exact: a `double` is a rational.

The extremes are kept in microseconds and compared with the number of ticks.
`profile_extremes_iff` says for which sequences of durations they are right
all the same.
-/

namespace ChattingServer

def dfTAG_NAME_MAX : Nat := 64
def dfSAMPLE_MAX : Nat := 50

/-- A name that `wsprintf`, which takes it for a format, copies to `szName` as
it is. -/
structure TagName where
  chars : List WCHAR
  fits : chars.length < dfTAG_NAME_MAX
  text : 0 ∉ chars
  plain : 0x25 ∉ chars

/-- `PROFILE_SAMPLE`. -/
structure ProfileSample where
  bFlag : Bool
  szName : List WCHAR
  lStartTime : Int
  dTotalTime : ℚ
  dMin : ℚ × ℚ
  dMax : ℚ × ℚ
  iCall : Int

def DBL_MAX : ℚ := (2 ^ 53 - 1) * 2 ^ 971

/-- `_dMicroFrequency`: ticks in a microsecond. -/
def microFrequency (iFrequency : Nat) : ℚ := (iFrequency : ℚ) / 1000000

/-- A sample taken for a name. -/
def ProfileSample.named (s : ProfileSample) (name : TagName) : ProfileSample :=
  { s with
    szName := name.chars
    bFlag := true
    lStartTime := 0
    dTotalTime := 0
    dMax := (0, 0)
    dMin := (DBL_MAX, DBL_MAX)
    iCall := 0 }

/-- The samples a thread starts with: of each the first four bytes are cleared,
which are those of `bFlag` and of the first character of `szName`. -/
def newSamples (memory : List ProfileSample) : List ProfileSample :=
  memory.map fun s => { s with bFlag := false, szName := [] }

/-- The samples before the one `GetSample` points to, that one, and those
behind it. -/
def findSample (name : TagName) :
    List ProfileSample → Option (List ProfileSample × ProfileSample × List ProfileSample)
  | [] => none
  | s :: rest =>
      if s.bFlag ∧ s.szName = name.chars then
        some ([], s, rest)
      else if s.szName = [] then
        some ([], s.named name, rest)
      else
        (findSample name rest).map fun (before, found, behind) => (s :: before, found, behind)

/-- The table behind the thread's index, made of `memory` on the first call. -/
def samples (memory : List ProfileSample) (tls : Option (List ProfileSample)) :
    List ProfileSample :=
  tls.getD (newSamples memory)

/-- `ProfileBegin` at a counter of `lStartTime`, and the table it leaves. -/
def profileBegin (name : TagName) (lStartTime : Int) (table : List ProfileSample) :
    Bool × List ProfileSample :=
  match findSample name table with
  | none => (false, table)
  | some (before, s, behind) =>
      if s.lStartTime ≠ 0 then
        (false, before ++ s :: behind)
      else
        (true, before ++ { s with lStartTime := lStartTime } :: behind)

/-- What `ProfileEnd` enters for a duration of `lSampleTime` ticks. -/
def ProfileSample.record (dMicroFrequency : ℚ) (s : ProfileSample) (lSampleTime : Int) :
    ProfileSample :=
  let s :=
    if s.dMax.2 < lSampleTime then
      { s with dMax := (s.dMax.2, (lSampleTime : ℚ) / dMicroFrequency) }
    else
      s
  let s :=
    if s.dMin.2 > lSampleTime then
      { s with dMin := (s.dMin.2, (lSampleTime : ℚ) / dMicroFrequency) }
    else
      s
  { s with
    dTotalTime := s.dTotalTime + (lSampleTime : ℚ) / dMicroFrequency
    iCall := s.iCall + 1
    lStartTime := 0 }

/-- `ProfileEnd` at a counter of `lEndTime`. -/
def profileEnd (dMicroFrequency : ℚ) (name : TagName) (lEndTime : Int)
    (table : List ProfileSample) : Bool × List ProfileSample :=
  match findSample name table with
  | none => (false, table)
  | some (before, s, behind) =>
      (true, before ++ s.record dMicroFrequency (lEndTime - s.lStartTime) :: behind)

/-- Pairs of `ProfileBegin` and `ProfileEnd` at the given counters: none if one
of the calls returned `false`. -/
def profile (dMicroFrequency : ℚ) (name : TagName) (table : List ProfileSample) :
    List (Int × Int) → Option (List ProfileSample)
  | [] => some table
  | (lStartTime, lEndTime) :: times =>
      match profileBegin name lStartTime table with
      | (false, _) => none
      | (true, table) =>
          match profileEnd dMicroFrequency name lEndTime table with
          | (false, _) => none
          | (true, table) => profile dMicroFrequency name table times

/-! ## The sample under a name -/

section Samples

variable {name : TagName} {table before behind : List ProfileSample} {s : ProfileSample}

/-- What is found carries the name. -/
theorem findSample_named (found : findSample name table = some (before, s, behind)) :
    s.bFlag = true ∧ s.szName = name.chars := by
  induction table generalizing before with
  | nil => cases found
  | cons t rest ih =>
      rw [findSample] at found
      split_ifs at found with here free
      · cases found
        exact here
      · cases found
        exact ⟨rfl, rfl⟩
      · obtain ⟨⟨b, u, r⟩, found', same⟩ := Option.map_eq_some_iff.mp found
        cases same
        exact ih found'

/-- Whatever is entered in the sample, it is the one found under the name. -/
theorem findSample_again (found : findSample name table = some (before, s, behind))
    (s' : ProfileSample) (named : s'.bFlag = true ∧ s'.szName = name.chars) :
    findSample name (before ++ s' :: behind) = some (before, s', behind) := by
  induction table generalizing before with
  | nil => cases found
  | cons t rest ih =>
      rw [findSample] at found
      split_ifs at found with here free
      · cases found
        rw [List.nil_append, findSample, if_pos named]
      · cases found
        rw [List.nil_append, findSample, if_pos named]
      · obtain ⟨⟨b, u, r⟩, found', same⟩ := Option.map_eq_some_iff.mp found
        cases same
        rw [List.cons_append, findSample, if_neg here, if_neg free, ih found']
        rfl

theorem record_named (μ : ℚ) (d : Int) :
    (s.record μ d).bFlag = s.bFlag ∧ (s.record μ d).szName = s.szName ∧
      (s.record μ d).lStartTime = 0 := by
  unfold ProfileSample.record
  dsimp only
  split_ifs <;> exact ⟨rfl, rfl, rfl⟩

/-- The start of a measurement leaves no trace once it has ended. -/
theorem record_started (μ : ℚ) (d t : Int) :
    ({ s with lStartTime := t } : ProfileSample).record μ d = s.record μ d := by
  unfold ProfileSample.record
  dsimp only
  split_ifs <;> rfl

/-- The durations of the pairs. -/
def durations (times : List (Int × Int)) : List Int := times.map fun t => t.2 - t.1

/-- **One pair.** -/
theorem profile_cons (μ : ℚ) (lStartTime lEndTime : Int) (times : List (Int × Int))
    (found : findSample name table = some (before, s, behind)) (idle : s.lStartTime = 0) :
    profile μ name table ((lStartTime, lEndTime) :: times) =
      profile μ name (before ++ s.record μ (lEndTime - lStartTime) :: behind) times := by
  have begins : profileBegin name lStartTime table =
      (true, before ++ { s with lStartTime := lStartTime } :: behind) := by
    rw [profileBegin, found]
    exact if_neg (not_not.mpr idle)
  have named := findSample_named found
  have again := findSample_again found { s with lStartTime := lStartTime }
    ⟨named.1, named.2⟩
  have ends : profileEnd μ name lEndTime (before ++ { s with lStartTime := lStartTime } :: behind) =
      (true, before ++ s.record μ (lEndTime - lStartTime) :: behind) := by
    rw [profileEnd, again]
    dsimp only
    rw [record_started]
  rw [profile, begins]
  dsimp only
  rw [ends]

/-- Pairs under one name enter their durations in its sample, one after
another. -/
theorem profile_of_found (μ : ℚ) (t : Int × Int) (times : List (Int × Int))
    (found : findSample name table = some (before, s, behind)) (idle : s.lStartTime = 0) :
    profile μ name table (t :: times) =
      some (before ++ (durations (t :: times)).foldl (ProfileSample.record μ) s :: behind) := by
  induction times generalizing t s table with
  | nil =>
      rw [profile_cons μ t.1 t.2 [] found idle]
      rfl
  | cons u times ih =>
      obtain ⟨flag, chars, stopped⟩ := record_named (s := s) μ (t.2 - t.1)
      have named := findSample_named found
      have again := findSample_again found (s.record μ (t.2 - t.1))
        ⟨flag.trans named.1, chars.trans named.2⟩
      rw [profile_cons μ t.1 t.2 (u :: times) found idle, ih u again stopped]
      rfl

theorem foldl_record_named (μ : ℚ) (ds : List Int) :
    (ds.foldl (ProfileSample.record μ) s).bFlag = s.bFlag ∧
      (ds.foldl (ProfileSample.record μ) s).szName = s.szName := by
  induction ds generalizing s with
  | nil => exact ⟨rfl, rfl⟩
  | cons d ds ih =>
      obtain ⟨flag, chars, -⟩ := record_named (s := s) μ d
      obtain ⟨flags, charss⟩ := ih (s := s.record μ d)
      exact ⟨flags.trans flag, charss.trans chars⟩

end Samples

/-! ## The extremes -/

/-- The durations in microseconds. -/
def microseconds (μ : ℚ) (ds : List Int) : Set ℚ := (fun d : Int => (d : ℚ) / μ) '' {d | d ∈ ds}

/-- What a sample shows of the durations entered in it. -/
structure Shows (μ : ℚ) (ds : List Int) (s : ProfileSample) : Prop where
  longest : IsGreatest (microseconds μ ds) s.dMax.2
  shortest : IsLeast (microseconds μ ds) s.dMin.2
  total : s.dTotalTime = (ds.map fun d : Int => (d : ℚ) / μ).sum
  calls : s.iCall = ds.length

/-- The next duration compares with an extreme of the earlier ones, kept in
microseconds, as it does with the same in ticks. -/
structure Agrees (μ : ℚ) (earlier : List Int) (d : Int) : Prop where
  longest : ∀ D ∈ earlier, (∀ x ∈ earlier, x ≤ D) →
    (D < d → (D : ℚ) / μ < d) ∧ (d < D → (d : ℚ) ≤ D / μ)
  shortest : ∀ D ∈ earlier, (∀ x ∈ earlier, D ≤ x) →
    (d < D → (d : ℚ) < D / μ) ∧ (D < d → (D : ℚ) / μ ≤ d)

section Extremes

variable {μ : ℚ} {ds earlier : List Int} {d : Int} {s : ProfileSample}

theorem record_dMax (μ : ℚ) (s : ProfileSample) (d : Int) :
    (s.record μ d).dMax.2 = if s.dMax.2 < d then (d : ℚ) / μ else s.dMax.2 := by
  unfold ProfileSample.record
  dsimp only
  split_ifs <;> rfl

theorem record_dMin (μ : ℚ) (s : ProfileSample) (d : Int) :
    (s.record μ d).dMin.2 = if s.dMin.2 > d then (d : ℚ) / μ else s.dMin.2 := by
  unfold ProfileSample.record
  dsimp only
  split_ifs <;> rfl

theorem record_total (μ : ℚ) (s : ProfileSample) (d : Int) :
    (s.record μ d).dTotalTime = s.dTotalTime + d / μ ∧ (s.record μ d).iCall = s.iCall + 1 := by
  unfold ProfileSample.record
  dsimp only
  split_ifs <;> exact ⟨rfl, rfl⟩

theorem strictMono_div (positive : 0 < μ) : StrictMono fun d : Int => (d : ℚ) / μ :=
  fun _ _ less => div_lt_div_of_pos_right (Int.cast_lt.mpr less) positive

/-- The first duration is both extremes: it is no less than the initial maximum
and less than the initial minimum. -/
theorem shows_first (μ : ℚ) (s : ProfileSample) (name : TagName) (natural : 0 ≤ d)
    (range : d < 2 ^ 63) : Shows μ [d] ((s.named name).record μ d) := by
  have alone : microseconds μ [d] = {(d : ℚ) / μ} := by simp [microseconds]
  obtain ⟨total, calls⟩ := record_total μ (s.named name) d
  refine ⟨?_, ?_, ?_, ?_⟩
  · have kept : ((s.named name).record μ d).dMax.2 = (d : ℚ) / μ := by
      rw [record_dMax]
      rcases natural.eq_or_lt with rfl | positive
      · rw [if_neg (by simp [ProfileSample.named])]
        simp [ProfileSample.named]
      · exact if_pos (Int.cast_pos.mpr positive)
    rw [alone, kept]
    exact isGreatest_singleton
  · have kept : ((s.named name).record μ d).dMin.2 = (d : ℚ) / μ := by
      rw [record_dMin]
      apply if_pos
      show (d : ℚ) < (2 ^ 53 - 1) * 2 ^ 971
      calc (d : ℚ) < 2 ^ 63 := by exact_mod_cast range
        _ ≤ 2 ^ 971 := pow_le_pow_right₀ (by norm_num) (by norm_num)
        _ ≤ (2 ^ 53 - 1) * 2 ^ 971 := le_mul_of_one_le_left (by positivity) (by norm_num)
    rw [alone, kept]
    exact isLeast_singleton
  · rw [total]
    simp [ProfileSample.named]
  · rw [calls]
    simp [ProfileSample.named]

/-- **One more duration.** -/
theorem Shows.record_iff (positive : 0 < μ) (shows : Shows μ earlier s) :
    Shows μ (earlier ++ [d]) (s.record μ d) ↔ Agrees μ earlier d := by
  have largest : ∀ D ∈ earlier, (∀ x ∈ earlier, x ≤ D) → s.dMax.2 = D / μ := fun D listed most =>
    shows.longest.unique ⟨⟨D, listed, rfl⟩, fun t old => by
      obtain ⟨x, old, rfl⟩ := old
      exact (strictMono_div positive).monotone (most x old)⟩
  have smallest : ∀ D ∈ earlier, (∀ x ∈ earlier, D ≤ x) → s.dMin.2 = D / μ := fun D listed least =>
    shows.shortest.unique ⟨⟨D, listed, rfl⟩, fun t old => by
      obtain ⟨x, old, rfl⟩ := old
      exact (strictMono_div positive).monotone (least x old)⟩
  have longest := isGreatest_replace_iff (a := d) (strictMono_div positive) shows.longest
    (s.dMax.2 < d)
  have shortest := isLeast_replace_iff (a := d) (strictMono_div positive) shows.shortest
    (s.dMin.2 > d)
  rw [← record_dMax] at longest
  rw [← record_dMin] at shortest
  obtain ⟨total, calls⟩ := record_total μ s d
  constructor
  · intro after
    refine ⟨fun D listed most => ?_, fun D listed least => ?_⟩
    · have agrees := longest.mp after.longest D listed most
      rw [largest D listed most, not_lt] at agrees
      exact agrees
    · have agrees := shortest.mp after.shortest D listed least
      rw [smallest D listed least, gt_iff_lt, not_lt] at agrees
      exact agrees
  · intro agrees
    refine ⟨longest.mpr fun D listed most => ?_, shortest.mpr fun D listed least => ?_, ?_, ?_⟩
    · rw [largest D listed most, not_lt]
      exact agrees.longest D listed most
    · rw [smallest D listed least, gt_iff_lt, not_lt]
      exact agrees.shortest D listed least
    · rw [total, shows.total, List.map_append, List.sum_append, List.map_singleton,
        List.sum_singleton]
    · rw [calls, shows.calls, List.length_append, List.length_singleton]
      rfl

end Extremes

/-! ## Runs -/

/-- After the pairs, each of which returned `true`, the sample under the name
shows their durations. -/
def ShowsDurations (μ : ℚ) (name : TagName) (table : List ProfileSample)
    (times : List (Int × Int)) : Prop :=
  ∃ after before s behind, profile μ name table times = some after ∧
    findSample name after = some (before, s, behind) ∧ Shows μ (durations times) s

/-- The thread has a sample for the name and has not used it yet. -/
def Unused (name : TagName) (table : List ProfileSample) : Prop :=
  ∃ (before : List ProfileSample) (s : ProfileSample) (behind : List ProfileSample),
    findSample name table = some (before, s.named name, behind)

section Runs

variable {μ : ℚ} {name : TagName} {table before behind : List ProfileSample} {s : ProfileSample}

theorem durations_append (past times : List (Int × Int)) :
    durations (past ++ times) = durations past ++ durations times :=
  List.map_append

theorem showsDurations_iff (found : findSample name table = some (before, s.named name, behind))
    {times : List (Int × Int)} (nonempty : times ≠ []) :
    ShowsDurations μ name table times ↔
      Shows μ (durations times)
        ((durations times).foldl (ProfileSample.record μ) (s.named name)) := by
  obtain ⟨t, times, rfl⟩ := List.exists_cons_of_ne_nil nonempty
  have run := profile_of_found μ t times found rfl
  have again := findSample_again found _
    (foldl_record_named (s := s.named name) μ (durations (t :: times)))
  constructor
  · intro shows
    obtain ⟨after, before', s', behind', run', found', shows⟩ := shows
    cases run.symm.trans run'
    cases again.symm.trans found'
    exact shows
  · intro shows
    exact ⟨_, _, _, _, run, again, shows⟩

/-- The first pair of a name shows its duration. -/
theorem showsDurations_first (μ : ℚ)
    (found : findSample name table = some (before, s.named name, behind)) {t : Int × Int}
    (clock : 0 ≤ t.1 ∧ t.1 ≤ t.2 ∧ t.2 < 2 ^ 63) : ShowsDurations μ name table [t] := by
  obtain ⟨start, order, range⟩ := clock
  rw [showsDurations_iff found (List.cons_ne_nil t [])]
  exact shows_first μ s name (d := t.2 - t.1) (by omega) (by omega)

/-- A pair after others is shown exactly when its duration agrees with theirs. -/
theorem showsDurations_snoc_iff (positive : 0 < μ)
    (found : findSample name table = some (before, s.named name, behind))
    {past : List (Int × Int)} (nonempty : past ≠ []) (shows : ShowsDurations μ name table past)
    (t : Int × Int) :
    ShowsDurations μ name table (past ++ [t]) ↔ Agrees μ (durations past) (t.2 - t.1) := by
  rw [showsDurations_iff found nonempty] at shows
  rw [showsDurations_iff found (by simp), durations_append, List.foldl_append]
  exact shows.record_iff positive

end Runs

/-- **The extremes.**  The sample under a name shows the durations after every
`ProfileEnd` exactly when each duration compares with the extremes of the
earlier ones, kept in microseconds, as it does with the same in ticks. -/
theorem profile_extremes_iff (iFrequency : Nat) (counts : 0 < iFrequency) (name : TagName)
    (table : List ProfileSample) (unused : Unused name table) (times : List (Int × Int))
    (clock : ∀ t ∈ times, 0 ≤ t.1 ∧ t.1 ≤ t.2 ∧ t.2 < 2 ^ 63) :
    (∀ past, past <+: times → past ≠ [] →
        ShowsDurations (microFrequency iFrequency) name table past) ↔
      ∀ past t, past ++ [t] <+: times →
        Agrees (microFrequency iFrequency) (durations past) (t.2 - t.1) := by
  have positive : 0 < microFrequency iFrequency :=
    div_pos (Nat.cast_pos.mpr counts) (by norm_num)
  obtain ⟨before, s, behind, found⟩ := unused
  constructor
  · intro shows past t within
    rcases eq_or_ne past [] with rfl | nonempty
    · exact ⟨fun D listed => absurd listed List.not_mem_nil,
        fun D listed => absurd listed List.not_mem_nil⟩
    · have before := shows past ((List.prefix_append _ _).trans within) nonempty
      have after := shows (past ++ [t]) within (by simp)
      exact (showsDurations_snoc_iff positive found nonempty before t).mp after
  · intro agrees past
    induction past using List.reverseRecOn with
    | nil => exact fun _ nonempty => absurd rfl nonempty
    | append_singleton past t ih =>
        intro within _
        have listed := within.subset (List.mem_append_right _ (List.mem_singleton_self t))
        rcases eq_or_ne past [] with rfl | nonempty
        · exact showsDurations_first _ found (clock t listed)
        · have before := ih ((List.prefix_append _ _).trans within) nonempty
          exact (showsDurations_snoc_iff positive found nonempty before t).mpr
            (agrees past t within)

/-- A thread that has not profiled anything yet has a sample for every name. -/
theorem unused_samples {memory : List ProfileSample} (size : memory.length = dfSAMPLE_MAX)
    (name : TagName) : Unused name (samples memory none) := by
  obtain ⟨s, memory, rfl⟩ : ∃ s rest, memory = s :: rest := by
    cases memory with
    | nil => cases size
    | cons s memory => exact ⟨s, memory, rfl⟩
  refine ⟨[], { s with bFlag := false, szName := [] }, newSamples memory, ?_⟩
  show findSample name ({ s with bFlag := false, szName := [] } :: newSamples memory) = _
  rw [findSample, if_neg fun used => Bool.false_ne_true used.1, if_pos rfl]

/-- A counter of a million ticks a second counts microseconds. -/
theorem agrees_million (earlier : List Int) (d : Int) :
    Agrees (microFrequency 1000000) earlier d := by
  have one : microFrequency 1000000 = 1 := by norm_num [microFrequency]
  rw [one]
  refine ⟨fun D _ _ => ?_, fun D _ _ => ?_⟩
  · rw [div_one]
    exact ⟨fun less => Int.cast_lt.mpr less, fun less => (Int.cast_lt.mpr less).le⟩
  · rw [div_one]
    exact ⟨fun less => Int.cast_lt.mpr less, fun less => (Int.cast_lt.mpr less).le⟩

/-- What the memory of a new sample may hold. -/
def clearSample : ProfileSample where
  bFlag := false
  szName := []
  lStartTime := 0
  dTotalTime := 0
  dMin := (0, 0)
  dMax := (0, 0)
  iCall := 0

def tagA : TagName where
  chars := [0x41]
  fits := by decide
  text := by decide
  plain := by decide

/-- At a million ticks a second a sample shows a hundred ticks and then fifty as they
were. -/
theorem profile_extremes_million :
    ShowsDurations (microFrequency 1000000) tagA
      (samples (List.replicate dfSAMPLE_MAX clearSample) none) [(1, 101), (200, 250)] :=
  (profile_extremes_iff 1000000 (by decide) tagA _ (unused_samples List.length_replicate tagA)
    [(1, 101), (200, 250)] (by decide)).mpr (fun past t _ => agrees_million _ _)
    [(1, 101), (200, 250)] (List.prefix_refl _) (List.cons_ne_nil _ _)

/-- At ten million ticks a second, a hundred ticks and then fifty leave the fifty as the
maximum. -/
theorem profile_maximum_lost :
    ((profile (microFrequency 10000000) tagA
        (samples (List.replicate dfSAMPLE_MAX clearSample) none) [(1, 101), (200, 250)]).bind
      (findSample tagA)).map (fun found => (found.2.1.dMax.2, found.2.1.iCall)) = some (5, 2) ∧
    ¬ ShowsDurations (microFrequency 10000000) tagA
      (samples (List.replicate dfSAMPLE_MAX clearSample) none) [(1, 101), (200, 250)] := by
  have shown : ((profile (microFrequency 10000000) tagA
      (samples (List.replicate dfSAMPLE_MAX clearSample) none) [(1, 101), (200, 250)]).bind
      (findSample tagA)).map (fun found => (found.2.1.dMax.2, found.2.1.iCall)) = some (5, 2) := by
    decide +kernel
  refine ⟨shown, fun shows => ?_⟩
  obtain ⟨after, before, s, behind, run, found, shows⟩ := shows
  rw [run, Option.bind_some, found] at shown
  have five : s.dMax.2 = 5 := congrArg Prod.fst (Option.some.inj shown)
  have ten : (100 : ℚ) / microFrequency 10000000 ≤ s.dMax.2 :=
    shows.longest.2 ⟨100, by decide, by norm_num⟩
  rw [five] at ten
  norm_num [microFrequency] at ten

end ChattingServer
