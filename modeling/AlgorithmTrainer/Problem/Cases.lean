import Mathlib.Algebra.Order.Ring.Cast
import Mathlib.Data.List.Sort
import AlgorithmTrainer.Lib.Decimal
import AlgorithmTrainer.Lib.IntervalScan
import AlgorithmTrainer.Lib.Matching
import AlgorithmTrainer.Lib.PairCount
import AlgorithmTrainer.Problem.Record

/-!
# `Problem.Cases` — the hidden tests of the seeded problems

Four of the generators of `problem.cpp`: each takes the data of a test, writes the input in the problem's
format and computes the expected output itself. A wrong expected output would fail every right submission,
so for each of them two things are shown: the input, read by the documented format, is the data again, and
the expected output is the number that the statement of the problem asks for.

The values are `long long`, so they are `Int64`; counters of a vector's elements are natural numbers.
-/

namespace AlgorithmTrainer

abbrev Values := List Int64
abbrev Intervals := List (Int64 × Int64)

/-! ## The generators -/

/-- The values from the one at `index` on, with a blank before each but the first. -/
def writeValues : Nat → Values → String
  | _, [] => ""
  | index, value :: values =>
      (if index != 0 then " " else "") ++ toString value ++ writeValues (index + 1) values

def valuesLine (values : Values) : String := writeValues 0 values ++ "\n"

def writeIntervals : Intervals → String
  | [] => ""
  | (start, finish) :: intervals =>
      toString start ++ " " ++ toString finish ++ "\n" ++ writeIntervals intervals

def intervalsInput (intervals : Intervals) : String :=
  toString intervals.length ++ "\n" ++ writeIntervals intervals

/-- The order of the sorted intervals: by their end, then by their start. -/
def byFinish (left right : Int64 × Int64) : Prop :=
  left.2 < right.2 ∨ (left.2 = right.2 ∧ left.1 ≤ right.1)

instance : DecidableRel byFinish := fun left right =>
  inferInstanceAs (Decidable (left.2 < right.2 ∨ (left.2 = right.2 ∧ left.1 ≤ right.1)))

/-- The loop of `activity_case`, with its `last_end` and `selected`. -/
def selectActivities (lastEnd : Int64) (selected : Nat) : Intervals → Nat
  | [] => selected
  | (start, finish) :: intervals =>
      if lastEnd ≤ start then selectActivities finish (selected + 1) intervals
      else selectActivities lastEnd selected intervals

def activityCase (intervals : Intervals) : ProblemTestCase where
  input := intervalsInput intervals
  expectedOutput :=
    toString (selectActivities Int64.minValue 0 (intervals.insertionSort byFinish)) ++ "\n"

/-- The loop of `cookie_case`: `child` children have a cookie. -/
def serveChildren (appetites : Values) (child : Nat) : Values → Nat
  | [] => child
  | cookie :: cookies =>
      if child < appetites.length ∧ appetites.getD child 0 ≤ cookie then
        serveChildren appetites (child + 1) cookies
      else serveChildren appetites child cookies

def cookieCase (appetites cookies : Values) : ProblemTestCase where
  input := toString appetites.length ++ " " ++ toString cookies.length ++ "\n"
    ++ valuesLine appetites ++ valuesLine cookies
  expectedOutput := toString (serveChildren (appetites.insertionSort (· ≤ ·)) 0
    (cookies.insertionSort (· ≤ ·))) ++ "\n"

/-- The loop of `arrows_case`, with its `arrows` and `position`. -/
def shootArrows (arrows : Nat) (position : Int64) : Intervals → Nat
  | [] => arrows
  | (start, finish) :: balloons =>
      if arrows = 0 ∨ position < start then shootArrows (arrows + 1) finish balloons
      else shootArrows arrows position balloons

def arrowsCase (balloons : Intervals) : ProblemTestCase where
  input := intervalsInput balloons
  expectedOutput := toString (shootArrows 0 0 (balloons.insertionSort byFinish)) ++ "\n"

/-- The loop of `pair_sum_case`: `seen` is the map from a value to how often it came before. -/
def countPairSums (target : Int64) (seen : Int64 → Option Int64) (pairs : Int64) : Values → Int64
  | [] => pairs
  | value :: values =>
      let found := match seen (target - value) with
        | some count => pairs + count
        | none => pairs
      countPairSums target (Function.update seen value (some ((seen value).getD 0 + 1))) found values

def pairSumCase (values : Values) (target : Int64) : ProblemTestCase where
  input := toString values.length ++ " " ++ toString target ++ "\n" ++ valuesLine values
  expectedOutput := toString (countPairSums target (fun _ => none) 0 values) ++ "\n"

/-! ## The documented formats -/

def pairOfRow : List Int → Option (Int × Int)
  | [first, second] => some (first, second)
  | _ => none

/-- The number of intervals, then one interval on each line. -/
def readIntervals (text : String) : Option (List (Int × Int)) :=
  match Decimal.readRows text.toList with
  | some ([count] :: rows) => if count = rows.length then rows.mapM pairOfRow else none
  | _ => none

/-- The numbers of children and cookies, then the appetites and the cookie sizes on a line each. -/
def readCookies (text : String) : Option (List Int × List Int) :=
  match Decimal.readRows text.toList with
  | some [[n, m], appetites, cookies] =>
      if n = appetites.length ∧ m = cookies.length then some (appetites, cookies) else none
  | _ => none

/-- The number of values and the target, then the values on one line. -/
def readPairSum (text : String) : Option (List Int × Int) :=
  match Decimal.readRows text.toList with
  | some [[n, target], values] => if n = values.length then some (values, target) else none
  | _ => none

def exactInterval (interval : Int64 × Int64) : Int × Int := (interval.1.toInt, interval.2.toInt)

/-! ## What is written is read back -/

theorem toList_int64 (value : Int64) : (toString value).toList = Decimal.digits value.toInt := rfl

theorem toList_nat (n : Nat) : (toString n).toList = Decimal.digits n := rfl

theorem toList_writeValues {index : Nat} (hindex : index ≠ 0) (values : Values) :
    (writeValues index values).toList
      = (values.map fun value => ' ' :: Decimal.digits value.toInt).flatten := by
  induction values generalizing index with
  | nil => rfl
  | cons value values ih =>
      unfold writeValues
      rw [if_pos (bne_iff_ne.mpr hindex), String.toList_append, String.toList_append, toList_int64,
        ih (Nat.succ_ne_zero index)]
      simp

theorem toList_valuesLine (values : Values) :
    (valuesLine values).toList = Decimal.printRows [values.map Int64.toInt] := by
  have hline : (writeValues 0 values).toList = Decimal.line (values.map Int64.toInt) := by
    cases values with
    | nil => rfl
    | cons value values =>
        unfold writeValues Decimal.line
        rw [List.map_cons, List.map_cons, Separated.intercalate_cons, String.toList_append,
          toList_writeValues (Nat.succ_ne_zero 0), String.toList_append, toList_int64]
        simp [Function.comp_def]
  unfold valuesLine Decimal.printRows
  rw [String.toList_append, hline]
  simp

theorem toList_writeIntervals (intervals : Intervals) :
    (writeIntervals intervals).toList
      = Decimal.printRows (intervals.map fun i => [i.1.toInt, i.2.toInt]) := by
  induction intervals with
  | nil => rfl
  | cons interval intervals ih =>
      have hrows : Decimal.printRows ((interval :: intervals).map fun i => [i.1.toInt, i.2.toInt])
          = Decimal.printRows [[interval.1.toInt, interval.2.toInt]]
            ++ Decimal.printRows (intervals.map fun i => [i.1.toInt, i.2.toInt]) :=
        Decimal.printRows_append [_] _
      unfold writeIntervals
      rw [hrows, ← ih, Decimal.printRows_two]
      simp only [String.toList_append, toList_int64]
      simp

theorem readIntervals_intervalsInput (intervals : Intervals) :
    readIntervals (intervalsInput intervals) = some (intervals.map exactInterval) := by
  have htext : (intervalsInput intervals).toList = Decimal.printRows
      ([[(intervals.length : Int)]] ++ intervals.map fun i => [i.1.toInt, i.2.toInt]) := by
    unfold intervalsInput
    rw [Decimal.printRows_append, ← toList_writeIntervals, Decimal.printRows_one]
    simp only [String.toList_append, toList_nat]
    simp
  have hpairs : ∀ l : Intervals,
      (l.map fun i => [i.1.toInt, i.2.toInt]).mapM pairOfRow = some (l.map exactInterval) := by
    intro l
    induction l with
    | nil => rfl
    | cons i l ih =>
        rw [List.map_cons, List.mapM_cons, ih]
        rfl
  unfold readIntervals
  rw [htext, Decimal.readRows_printRows]
  have hcount : (intervals.length : Int) = ((intervals.map fun i => [i.1.toInt, i.2.toInt]).length : Int) := by
    rw [List.length_map]
  exact (if_pos hcount).trans (hpairs intervals)

theorem readCookies_cookieCase (appetites cookies : Values) :
    readCookies (cookieCase appetites cookies).input
      = some (appetites.map Int64.toInt, cookies.map Int64.toInt) := by
  have htext : (cookieCase appetites cookies).input.toList = Decimal.printRows
      ([[(appetites.length : Int), (cookies.length : Int)]] ++ ([appetites.map Int64.toInt]
        ++ [cookies.map Int64.toInt])) := by
    rw [Decimal.printRows_append, Decimal.printRows_append, ← toList_valuesLine, ← toList_valuesLine,
      Decimal.printRows_two]
    simp only [cookieCase, String.toList_append, toList_nat]
    simp
  unfold readCookies
  rw [htext, Decimal.readRows_printRows]
  exact if_pos ⟨by rw [List.length_map], by rw [List.length_map]⟩

theorem readPairSum_pairSumCase (values : Values) (target : Int64) :
    readPairSum (pairSumCase values target).input
      = some (values.map Int64.toInt, target.toInt) := by
  have htext : (pairSumCase values target).input.toList = Decimal.printRows
      ([[(values.length : Int), target.toInt]] ++ [values.map Int64.toInt]) := by
    rw [Decimal.printRows_append, ← toList_valuesLine, Decimal.printRows_two]
    simp only [pairSumCase, String.toList_append, toList_nat, toList_int64]
    simp
  unfold readPairSum
  rw [htext, Decimal.readRows_printRows]
  exact if_pos (by rw [List.length_map])

/-! ## The expected outputs -/

section intervals
open IntervalScan

theorem perm_byFinish (intervals : Intervals) :
    (intervals.insertionSort byFinish).Perm intervals := List.perm_insertionSort byFinish intervals

theorem byFinish_total (a b : Int64 × Int64) : byFinish a b ∨ byFinish b a := by
  unfold byFinish
  simp only [Int64.lt_iff_toInt_lt, Int64.le_iff_toInt_le, ← Int64.toInt_inj]
  omega

theorem byFinish_trans {a b c : Int64 × Int64} (hab : byFinish a b) (hbc : byFinish b c) :
    byFinish a c := by
  unfold byFinish at *
  simp only [Int64.lt_iff_toInt_lt, Int64.le_iff_toInt_le, ← Int64.toInt_inj] at *
  omega

instance : Std.Total byFinish := ⟨byFinish_total⟩
instance : IsTrans (Int64 × Int64) byFinish := ⟨fun _ _ _ => byFinish_trans⟩

section coordinates
variable (K : Type*) [Ring K] [LinearOrder K] [IsStrictOrderedRing K]

/-- Coordinates as numbers of an ordered ring. -/
def startIn (i : Int64 × Int64) : K := (i.1.toInt : K)

def finishIn (i : Int64 × Int64) : K := (i.2.toInt : K)

variable {K}

theorem cast_le_cast {a b : Int64} : (a.toInt : K) ≤ (b.toInt : K) ↔ a ≤ b :=
  Int.cast_le.trans Int64.le_iff_toInt_le.symm

theorem cast_lt_cast {a b : Int64} : (a.toInt : K) < (b.toInt : K) ↔ a < b :=
  Int.cast_lt.trans Int64.lt_iff_toInt_lt.symm

/-- The sorted intervals are in the order of their ends. -/
theorem sorted_byFinish (intervals : Intervals) :
    (intervals.insertionSort byFinish).Pairwise fun a b => finishIn K a ≤ finishIn K b := by
  refine (List.pairwise_insertionSort byFinish intervals).imp fun {a b} h => ?_
  rcases h with h | h
  · exact (cast_lt_cast.mpr h).le
  · exact cast_le_cast.mpr (h.1 ▸ Int64.le_refl _)

end coordinates

/-! ### Activities -/

/-- The loop of `activity_case` is the scan of half-open intervals. -/
theorem selectActivities_eq (lastEnd : Int64) (selected : Nat) (intervals : Intervals) :
    selectActivities lastEnd selected intervals = selected
      + (scan (.halfOpen Int) (startIn Int) (finishIn Int) (some lastEnd.toInt) intervals).length := by
  induction intervals generalizing lastEnd selected with
  | nil => rfl
  | cons interval intervals ih =>
      obtain ⟨start, finish⟩ := interval
      have hclear : lastEnd ≤ start ↔
          ∀ f ∈ some lastEnd.toInt, (Clearance.halfOpen Int).clear f (startIn Int (start, finish)) := by
        rw [Int64.le_iff_toInt_le]
        exact ⟨fun h f hf => Option.mem_some.mp hf ▸ h, fun h => h _ rfl⟩
      by_cases h : lastEnd ≤ start
      · have hfinish : finishIn Int (start, finish) = finish.toInt := rfl
        rw [selectActivities, if_pos h, ih, scan_cons_clear (hclear.mp h), List.length_cons, hfinish]
        omega
      · rw [selectActivities, if_neg h, ih, scan_cons_not_clear fun hall => h (hclear.mpr hall)]

/-- Two activities that do not overlap: one may start when the other ends. -/
def NonOverlapping (a b : Int64 × Int64) : Prop := a.2 ≤ b.1 ∨ b.2 ≤ a.1

theorem nonOverlapping_eq :
    NonOverlapping = Apart (.halfOpen Int) (startIn Int) (finishIn Int) := by
  funext a b
  exact propext (or_congr cast_le_cast.symm cast_le_cast.symm)

/-- **The hidden tests of activity selection**: the input is the activities, and the expected output is the
largest number of them of which no two overlap. -/
theorem activityCase_correct (activities : Intervals) (h : ∀ a ∈ activities, a.1 < a.2) :
    readIntervals (activityCase activities).input = some (activities.map exactInterval) ∧
      ∃ k : Nat, (activityCase activities).expectedOutput = toString k ++ "\n" ∧
        IsGreatest {n | ∃ chosen : Intervals, chosen.Sublist activities
          ∧ chosen.Pairwise NonOverlapping ∧ chosen.length = n} k := by
  refine ⟨readIntervals_intervalsInput activities, _, rfl, ?_⟩
  have hproper : ∀ a ∈ activities, ¬(Clearance.halfOpen Int).clear (finishIn Int a) (startIn Int a) :=
    fun a ha => not_le.mpr (cast_lt_cast.mpr (h a ha))
  have hoptimal := scan_isGreatest (perm_byFinish activities) (sorted_byFinish activities) hproper
  -- the first activity is taken, as no start is below the least `long long`
  have hfirst : scan (.halfOpen Int) (startIn Int) (finishIn Int) (some Int64.minValue.toInt)
      (activities.insertionSort byFinish)
        = scan (.halfOpen Int) (startIn Int) (finishIn Int) none (activities.insertionSort byFinish) :=
    scan_some_eq_none fun i _ => Int64.minValue_le_toInt i.1
  rw [selectActivities_eq, Nat.zero_add, hfirst, nonOverlapping_eq]
  exact hoptimal

theorem activityCase_touching :
    readIntervals (activityCase [(-5, -2), (-2, 0), (-1, 2)]).input
        = some ([(-5, -2), (-2, 0), (-1, 2)].map exactInterval) ∧
      ∃ k : Nat, (activityCase [(-5, -2), (-2, 0), (-1, 2)]).expectedOutput = toString k ++ "\n" ∧
        IsGreatest {n | ∃ chosen : Intervals, chosen.Sublist [(-5, -2), (-2, 0), (-1, 2)]
          ∧ chosen.Pairwise NonOverlapping ∧ chosen.length = n} k :=
  activityCase_correct [(-5, -2), (-2, 0), (-1, 2)] (List.forall_iff_forall_mem.mp (by decide))

/-! ### Arrows -/

section arrows
variable {K : Type*} [Ring K] [LinearOrder K] [IsStrictOrderedRing K]

/-- The last arrow, once there is one. -/
def lastArrow (K : Type*) [IntCast K] (arrows : Nat) (position : Int64) : Option K :=
  if arrows = 0 then none else some (position.toInt : K)

theorem clear_lastArrow {arrows : Nat} {position : Int64} {b : Int64 × Int64} :
    (arrows = 0 ∨ position < b.1) ↔
      ∀ f ∈ lastArrow K arrows position, (Clearance.closed K).clear f (startIn K b) := by
  unfold lastArrow
  by_cases hzero : arrows = 0
  · rw [if_pos hzero]
    exact ⟨fun _ f hf => absurd hf (Option.not_mem_none f), fun _ => .inl hzero⟩
  · rw [if_neg hzero, ← cast_lt_cast (K := K)]
    constructor
    · intro h f hf
      rw [← Option.mem_some.mp hf]
      exact h.resolve_left hzero
    · intro h
      exact .inr (h _ rfl)

/-- The loop of `arrows_case` is the scan of closed intervals. -/
theorem shootArrows_eq (arrows : Nat) (position : Int64) (balloons : Intervals) :
    shootArrows arrows position balloons = arrows
      + (scan (.closed K) (startIn K) (finishIn K) (lastArrow K arrows position) balloons).length := by
  induction balloons generalizing arrows position with
  | nil => rfl
  | cons balloon balloons ih =>
      obtain ⟨start, finish⟩ := balloon
      by_cases h : arrows = 0 ∨ position < start
      · have hlast : lastArrow K (arrows + 1) finish = some (finishIn K (start, finish)) :=
          if_neg (Nat.succ_ne_zero arrows)
        have hclear := clear_lastArrow (K := K) (b := (start, finish)) |>.mp h
        rw [shootArrows, if_pos h, ih, scan_cons_clear hclear, List.length_cons, hlast]
        omega
      · have hmeets := fun hall => h (clear_lastArrow (K := K) (b := (start, finish)) |>.mpr hall)
        rw [shootArrows, if_neg h, ih, scan_cons_not_clear hmeets]

/-- **The hidden tests of minimum arrows**: the input is the balloons, and the expected output is the
smallest number of points, in any ordered ring, such that every balloon contains one of them. -/
theorem arrowsCase_correct (balloons : Intervals) (h : ∀ b ∈ balloons, b.1 ≤ b.2) :
    readIntervals (arrowsCase balloons).input = some (balloons.map exactInterval) ∧
      ∃ k : Nat, (arrowsCase balloons).expectedOutput = toString k ++ "\n" ∧
        IsLeast {n | ∃ points : Finset K,
          (∀ b ∈ balloons, ∃ p ∈ points, (b.1.toInt : K) ≤ p ∧ p ≤ (b.2.toInt : K))
            ∧ points.card = n} k := by
  refine ⟨readIntervals_intervalsInput balloons, _, rfl, ?_⟩
  have hproper : ∀ b ∈ balloons, ¬(Clearance.closed K).clear (finishIn K b) (startIn K b) :=
    fun b hb => not_lt.mpr (cast_le_cast.mpr (h b hb))
  have hoptimal := scan_isLeast (perm_byFinish balloons) (sorted_byFinish balloons) hproper
  have hhits : ∀ (p : K) (b : Int64 × Int64), Hits (.closed K) (startIn K) (finishIn K) p b ↔
      (b.1.toInt : K) ≤ p ∧ p ≤ (b.2.toInt : K) := by
    intro p b
    exact ⟨fun hp => ⟨not_lt.mp hp.2, hp.1⟩, fun hp => ⟨hp.2, not_lt.mpr hp.1⟩⟩
  have hfirst : lastArrow K 0 0 = none := if_pos rfl
  rw [shootArrows_eq (K := K), Nat.zero_add, hfirst]
  simpa only [hhits] using hoptimal

end arrows

theorem arrowsCase_touching :
    readIntervals (arrowsCase [(0, 0), (0, 1), (1, 1)]).input
        = some ([(0, 0), (0, 1), (1, 1)].map exactInterval) ∧
      ∃ k : Nat, (arrowsCase [(0, 0), (0, 1), (1, 1)]).expectedOutput = toString k ++ "\n" ∧
        IsLeast {n | ∃ points : Finset Int,
          (∀ b ∈ ([(0, 0), (0, 1), (1, 1)] : Intervals),
            ∃ p ∈ points, ((b.1.toInt : Int) : Int) ≤ p ∧ p ≤ ((b.2.toInt : Int) : Int))
              ∧ points.card = n} k :=
  arrowsCase_correct [(0, 0), (0, 1), (1, 1)] (List.forall_iff_forall_mem.mp (by decide))

end intervals

/-! ### Cookies -/

section cookies
open Matching

instance totalInt64 : Std.Total fun a b : Int64 => a ≤ b := ⟨Int64.le_total⟩
instance transInt64 : IsTrans Int64 (· ≤ ·) := ⟨fun _ _ _ => Int64.le_trans⟩

theorem sorted_values (values : Values) :
    ((values.insertionSort (· ≤ ·)).map Int64.toInt).Pairwise (· ≤ ·) :=
  List.pairwise_map.mpr ((List.pairwise_insertionSort (· ≤ ·) values).imp Int64.le_iff_toInt_le.mp)

theorem perm_values (values : Values) : ((values.insertionSort (· ≤ ·)).map Int64.toInt).Perm
    ((List.finRange values.length).map fun i => (values.get i).toInt) := by
  have hindices : (List.finRange values.length).map (fun i => (values.get i).toInt)
      = values.map Int64.toInt := by
    have hget := congrArg (List.map Int64.toInt) (List.map_get_finRange values)
    rwa [List.map_map] at hget
  rw [hindices]
  exact (List.perm_insertionSort (· ≤ ·) values).map Int64.toInt

/-- The loop of `cookie_case` serves the appetites from `child` on. -/
theorem serveChildren_eq (appetites : Values) (child : Nat) (cookies : Values) :
    serveChildren appetites child cookies
      = child + serve ((appetites.drop child).map Int64.toInt) (cookies.map Int64.toInt) := by
  induction cookies generalizing child with
  | nil => rw [serveChildren, List.map_nil, serve_nil_right, Nat.add_zero]
  | cons cookie cookies ih =>
      by_cases hchild : child < appetites.length
      · have hserved : (child < appetites.length ∧ appetites.getD child 0 ≤ cookie)
            ↔ appetites[child].toInt ≤ cookie.toInt := by
          rw [← List.getElem_eq_getD (h := hchild) 0, Int64.le_iff_toInt_le]
          exact and_iff_right hchild
        rw [serveChildren, List.drop_eq_getElem_cons hchild, List.map_cons, List.map_cons, serve]
        by_cases hle : appetites[child].toInt ≤ cookie.toInt
        · rw [if_pos (hserved.mpr hle), if_pos hle, ih]
          omega
        · rw [if_neg fun h => hle (hserved.mp h), if_neg hle, ih, List.drop_eq_getElem_cons hchild,
            List.map_cons]
      · -- every child has a cookie
        have hrest : appetites.drop child = [] := List.drop_eq_nil_of_le (Nat.le_of_not_lt hchild)
        rw [serveChildren, if_neg fun h => hchild h.1, ih, hrest, List.map_nil, serve_nil, serve_nil]

/-- **The hidden tests of cookie assignment**: the input is the appetites and the cookie sizes, and the
expected output is the largest number of children that an assignment satisfies. -/
theorem cookieCase_correct (appetites cookies : Values) :
    readCookies (cookieCase appetites cookies).input
        = some (appetites.map Int64.toInt, cookies.map Int64.toInt) ∧
      ∃ k : Nat, (cookieCase appetites cookies).expectedOutput = toString k ++ "\n" ∧
        IsGreatest {n | ∃ a : Assignment appetites.length cookies.length,
          a.satisfied (fun child => (appetites.get child).toInt)
            (fun cookie => (cookies.get cookie).toInt) = n} k := by
  refine ⟨readCookies_cookieCase appetites cookies, _, rfl, ?_⟩
  rw [serveChildren_eq, Nat.zero_add]
  exact serve_isGreatest _ _ (perm_values appetites) (sorted_values appetites) (perm_values cookies)
    (sorted_values cookies)

/-- Two cookies reach two of three children. -/
example : (cookieCase [3, 1, 2] [1, 2]).expectedOutput = "2\n" := by decide +kernel

end cookies

/-! ### Pairs with a given sum -/

section pairSum
open PairCount

/-- The index pairs whose values add up to the target. -/
def indexPairs (values : Values) (target : Int64) : Finset (Fin values.length × Fin values.length) :=
  Finset.univ.filter fun p =>
    p.1 < p.2 ∧ (values.get p.1).toInt + (values.get p.2).toInt = target.toInt

/-- The exact sum of two values is the target. -/
def sumsTo (target x y : Int64) : Bool := x.toInt + y.toInt = target.toInt

theorem card_pairs (values : Values) (target : Int64) :
    (indexPairs values target).card = pairs (sumsTo target) values := by
  rw [← card_indexPairs]
  unfold indexPairs sumsTo
  simp only [decide_eq_true_eq]

/-- What the loop of `pair_sum_case` adds: the pairs across what came before and what is left, and those of
what is left. -/
theorem countPairSums_eq {target : Int64} {seen : Int64 → Option Int64} {earlier : Values}
    (hseen : ∀ value, (seen value).getD 0 = .ofNat (earlier.count value)) {count : Int64}
    {values : Values} (hexact : ∀ v ∈ values, -2 ^ 63 ≤ target.toInt - v.toInt
      ∧ target.toInt - v.toInt < 2 ^ 63) :
    countPairSums target seen count values = count + .ofNat (across (sumsTo target) earlier values
      + pairs (sumsTo target) values) := by
  induction values generalizing seen earlier count with
  | nil =>
      show count = count + Int64.ofNat 0
      simp
  | cons value values ih =>
      obtain ⟨hlow, hhigh⟩ := hexact value List.mem_cons_self
      have hfound : countPairSums target seen count (value :: values) = countPairSums target
          (Function.update seen value (some ((seen value).getD 0 + 1)))
          (count + (seen (target - value)).getD 0) values := by
        rw [countPairSums]
        cases seen (target - value) with
        | none => rw [Option.getD_none, Int64.add_zero]
        | some n => rfl
      -- the values that came before and make a pair are those equal to the difference
      have hcount : earlier.count (target - value)
          = earlier.countP fun x => sumsTo target x value := by
        have hdifference : (target - value).toInt = target.toInt - value.toInt := by
          rw [Int64.toInt_sub]
          exact Int.bmod_eq_of_le (by simpa using hlow) (by simpa using hhigh)
        refine List.countP_congr fun x _ => ?_
        rw [beq_iff_eq, ← Int64.toInt_inj, hdifference, sumsTo, decide_eq_true_eq]
        omega
      have hseen' : ∀ v, ((Function.update seen value (some ((seen value).getD 0 + 1))) v).getD 0
          = .ofNat ((earlier ++ [value]).count v) := by
        intro v
        rw [List.count_append]
        by_cases hv : v = value
        · rw [hv, Function.update_self, Option.getD_some, hseen, List.count_singleton_self,
            Int64.ofNat_add]
          rfl
        · rw [Function.update_of_ne hv, hseen, List.count_singleton, if_neg (by simpa using Ne.symm hv),
            Nat.add_zero]
      rw [hfound, ih hseen' fun v hv => hexact v (List.mem_cons_of_mem value hv), hseen, hcount,
        Int64.add_assoc, ← Int64.ofNat_add, across_concat, across_cons, pairs]
      congr 2
      omega

/-- **The hidden tests of pair counting**: the input is the values and the target, and the expected output
is the number of index pairs with that sum. No difference and no count leaves the 64-bit range. -/
theorem pairSumCase_correct (values : Values) (target : Int64)
    (hexact : ∀ v ∈ values, -2 ^ 63 ≤ target.toInt - v.toInt ∧ target.toInt - v.toInt < 2 ^ 63)
    (hpairs : (indexPairs values target).card < 2 ^ 63) :
    readPairSum (pairSumCase values target).input = some (values.map Int64.toInt, target.toInt) ∧
      (pairSumCase values target).expectedOutput
        = toString (indexPairs values target).card ++ "\n" := by
  refine ⟨readPairSum_pairSumCase values target, ?_⟩
  have hcount : countPairSums target (fun _ => none) 0 values
      = 0 + .ofNat (across (sumsTo target) [] values + pairs (sumsTo target) values) :=
    countPairSums_eq (fun v => rfl) hexact
  rw [across_nil, Nat.zero_add, ← card_pairs] at hcount
  have hprint : (countPairSums target (fun _ => none) 0 values).toInt
      = ((indexPairs values target).card : Int) := by
    rw [hcount, Int64.zero_add, Int64.toInt_ofNat_of_lt hpairs]
  show toString (countPairSums target (fun _ => none) 0 values).toInt ++ "\n" = _
  rw [hprint]
  rfl

theorem pairSumCase_half :
    readPairSum (pairSumCase [5, 5, -1, 5] 10).input
        = some (([5, 5, -1, 5] : Values).map Int64.toInt, Int64.toInt 10) ∧
      (pairSumCase [5, 5, -1, 5] 10).expectedOutput
        = toString (indexPairs [5, 5, -1, 5] 10).card ++ "\n" :=
  pairSumCase_correct [5, 5, -1, 5] 10 (List.forall_iff_forall_mem.mp (by decide)) (by decide +kernel)

end pairSum

end AlgorithmTrainer
