import SmellCheck.Analysis.Threshold
import SmellCheck.Proofs.Analysis.Results
import SmellCheck.Proofs.FirstOccurrences
import Mathlib.Algebra.BigOperators.Group.List.Lemmas
/-!
# Capped reports

A cap spends its room on the results one after another, so the violations
that are left are the first ones of the whole report
(`flatMap_capViolations`), and what a result lists and what it omits add
up to what was found about it (`forall₂_cutTo_capViolations`). The flag
that it gives back is set if and only if there were more violations than
room (`capViolations_drops_iff`).

The numbers of a report are taken before the cap. They say how many
violations were found of each rule and severity, and thresholds read
nothing else: a run fails if a violation was found that is severe enough,
whether it is listed or not (`Report.Hides`).
-/

namespace SmellCheck

/-! ## Tallies -/

namespace Tally

/-- The sum of all counts. -/
def total (t : Tally) : Int :=
  t.foldr (fun entry n => entry.2 + n) 0

/-- **The counts of some names add up to the number of their
occurrences.** -/
theorem total_filter_ofNames (p : String → Bool) (names : List String) :
    total ((ofNames names).filter fun (name, _) => p name) = names.countP p := by
  have hfilter : (ofNames names).filter (fun (name, _) => p name) =
      (names.eraseDups.filter p).map fun name => (name, (names.count name : Int)) :=
    List.filter_map
  have htotal : ∀ kept : List String,
      total (kept.map fun name => (name, (names.count name : Int))) =
        ((kept.map names.count).sum : Nat) := by
    intro kept
    induction kept with
    | nil => rfl
    | cons name kept ih =>
      rw [List.map_cons, List.map_cons, List.sum_cons, Int.natCast_add, ← ih]
      rfl
  have hsum : ((names.eraseDups.filter p).map names.count).sum = names.countP p :=
    calc ((names.eraseDups.filter p).map names.count).sum
        = ((names.dedup.filter p).map names.count).sum :=
          (((eraseDups_perm_dedup names).filter p).map _).sum_eq
      _ = names.countP p := List.sum_map_count_dedup_filter_eq_countP p names
  rw [hfilter, htotal, hsum]

theorem total_ofNames (names : List String) : total (ofNames names) = names.length := by
  simpa using total_filter_ofNames (fun _ => true) names

end Tally

/-! ## Thresholds -/

/-- A count that fits in a word is left as it is. -/
theorem Text.wrapWord_of_lt {n : Nat} (h : n < 0x8000000000000000) : wrapWord n = n :=
  Int.bmod_eq_of_le (by omega) (by omega)

namespace Threshold

/-- A threshold counts the violations that were found and are severe
enough. -/
theorem reached_of (t : Threshold) (results : List TestResult) (errors : List AnalysisError) :
    t.reached (Summary.of results errors) =
      Text.wrapWord ((results.flatMap (·.violations)).countP fun v =>
        Severity.rankOfName v.severity ≤ t.rank) := by
  have htotal := Tally.total_filter_ofNames (fun name => Severity.rankOfName name ≤ t.rank)
    ((results.flatMap (·.violations)).map (·.severity))
  rw [List.countP_map] at htotal
  exact congrArg Text.wrapWord htotal

/-- A run fails if the threshold is reached at least once. -/
theorem isSome_failure? (t : Threshold) (s : Summary) :
    (t.failure? s).isSome = true ↔ t ≠ none ∧ 0 < t.reached s := by
  cases t with
  | none => simp [failure?]
  | some severity =>
    simp only [failure?, Option.bind_some]
    split <;> simp [*]

/-- **As long as violations can be counted in a word, a run fails if one
of them is severe enough.** -/
theorem isSome_failure?_of {results : List TestResult} {errors : List AnalysisError}
    (h : (results.flatMap (·.violations)).length < 0x8000000000000000) (t : Threshold) :
    t.reached (Summary.of results errors) =
        (results.flatMap (·.violations)).countP
          (fun v => Severity.rankOfName v.severity ≤ t.rank) ∧
      ((t.failure? (Summary.of results errors)).isSome = true ↔ ∃ severity, t = some severity ∧
        ∃ v ∈ results.flatMap (·.violations),
          Severity.rankOfName v.severity ≤ severity.rank) := by
  have hreached : t.reached (Summary.of results errors) =
      (results.flatMap (·.violations)).countP
        (fun v => Severity.rankOfName v.severity ≤ t.rank) := by
    rw [reached_of]
    exact Text.wrapWord_of_lt (Nat.lt_of_le_of_lt List.countP_le_length h)
  refine ⟨hreached, ?_⟩
  rw [isSome_failure?, hreached, Int.natCast_pos, List.countP_pos_iff]
  constructor
  · rintro ⟨hsome, v, hv, hrank⟩
    obtain ⟨severity, rfl⟩ := Option.ne_none_iff_exists'.1 hsome
    exact ⟨severity, rfl, v, hv, of_decide_eq_true hrank⟩
  · rintro ⟨severity, rfl, v, hv, hrank⟩
    exact ⟨Option.some_ne_none severity, v, hv, decide_eq_true hrank⟩

end Threshold

/-! ## The cap -/

namespace TestResult

theorem violations_cap (room : Nat) (r : TestResult) :
    (r.cap room).1.violations = r.violations.take room := by
  rw [cap]
  split
  · rfl
  · rename_i h
    exact (List.take_of_length_le (Nat.le_of_not_lt h)).symm

/-- A result is cut if it has more violations than there is room for. -/
theorem cap_drops_iff (room : Nat) (r : TestResult) :
    (r.cap room).2 = true ↔ room < r.violations.length := by
  rw [cap]
  split <;> simp [*]

/-- The result lists a beginning of the violations and counts the others. -/
def CutTo (full cut : TestResult) : Prop :=
  full.IsCut cut ∧ (cut.violations.length + cut.omitted : Int) = full.violations.length

/-- A result that omits nothing is not cut. -/
theorem cutTo_self {r : TestResult} (h : r.omitted = 0) : r.CutTo r :=
  ⟨.refl r, by rw [h, Int.add_zero]⟩

/-- What does not fit into the room is counted. -/
theorem cutTo_cap {r : TestResult} (h : r.omitted = 0) (room : Nat) : r.CutTo (r.cap room).1 := by
  refine ⟨r.isCut_cap room, ?_⟩
  rw [violations_cap, List.length_take, cap]
  split
  · simp only
    omega
  · rw [h]
    omega

end TestResult

/-- The room that a result leaves is what it does not need. -/
theorem room_left (room : Nat) (r : TestResult) :
    room - (r.cap room).1.violations.length = room - r.violations.length := by
  rw [r.violations_cap, List.length_take]
  omega

/-- **The first violations of all results are left.** -/
theorem flatMap_capViolations (room : Nat) (results : List TestResult) :
    (capViolations room results).1.flatMap (·.violations) =
      (results.flatMap (·.violations)).take room := by
  induction results generalizing room with
  | nil => rw [capViolations, List.flatMap_nil, List.take_nil]
  | cons r results ih =>
    -- the results behind the first one share the room that it leaves
    simp only [capViolations, List.flatMap_cons]
    rw [room_left, r.violations_cap, ih, List.take_append]

/-- **The flag of a cap tells whether violations are left out.** -/
theorem capViolations_drops_iff (room : Nat) (results : List TestResult) :
    (capViolations room results).2 = true ↔ room < (results.flatMap (·.violations)).length := by
  induction results generalizing room with
  | nil => simp [capViolations]
  | cons r results ih =>
    simp only [capViolations]
    rw [Bool.or_eq_true, r.cap_drops_iff, ih, room_left, List.flatMap_cons, List.length_append]
    omega

section Cut

variable {results : List TestResult} (h : ∀ r ∈ results, r.omitted = 0)

include h

theorem forall₂_cutTo_capViolations (room : Nat) :
    List.Forall₂ TestResult.CutTo results (capViolations room results).1 := by
  induction results generalizing room with
  | nil => exact .nil
  | cons r results ih =>
    obtain ⟨hr, hresults⟩ := List.forall_mem_cons.1 h
    exact .cons (TestResult.cutTo_cap hr room) (ih hresults _)

theorem forall₂_cutTo_limitViolations (limit : Int) :
    List.Forall₂ TestResult.CutTo results (limitViolations limit results).1 := by
  rw [limitViolations]
  split
  · exact List.forall₂_same.2 fun r hr => TestResult.cutTo_self (h r hr)
  · exact forall₂_cutTo_capViolations h _

end Cut

namespace Report

/-- The violations that a report lists, in the order of its results. -/
def violations (r : Report) : List Violation :=
  r.results.flatMap (·.violations)

/-- The number of violations that its results list and omit. -/
def accounted (r : Report) : Int :=
  r.results.foldr (fun result n => result.violations.length + result.omitted + n) 0

/-- Results that are cut account for all violations that were found. -/
theorem foldr_eq_length_of_cutTo {full cut : List TestResult}
    (h : List.Forall₂ TestResult.CutTo full cut) :
    cut.foldr (fun result n => (result.violations.length + result.omitted : Int) + n) 0 =
      (full.flatMap (·.violations)).length := by
  induction h with
  | nil => rfl
  | cons hcut _ ih =>
    rw [List.foldr_cons, ih, hcut.2, List.flatMap_cons, List.length_append, Int.natCast_add]

/-- **A capped report hides what the whole report lists beyond a limit**,
and says so. All its numbers are those of the whole report, and so is
what thresholds make of them. -/
structure Hides (limit : Int) (whole capped : Report) : Prop where
  assembly_eq : capped.assembly = whole.assembly
  errors_eq : capped.errors = whole.errors
  /-- The first violations are listed, up to the limit. -/
  violations_eq : capped.violations = whole.violations.take limit.toNat
  length_eq : (capped.violations.length : Int) = min limit whole.violations.length
  /-- Each result lists the first of its violations and counts the
  others. -/
  results : List.Forall₂ (fun full cut => full.omitted = 0 ∧ full.CutTo cut)
    whole.results capped.results
  truncated_iff : capped.summary.truncated = true ↔ limit < whole.violations.length
  warnings_eq : capped.metadata.warnings? = some (if limit < whole.violations.length then
    ["violations truncated to " ++ Text.decimal limit] else [])
  whole_truncated : whole.summary.truncated = false
  whole_warnings : whole.metadata.warnings? = some []
  /-- Nothing but the mark tells the numbers apart. -/
  summary_eq : { capped.summary with truncated := false } = whole.summary
  total_eq : whole.summary.totalViolations = whole.violations.length
  byRule_total : whole.summary.byRule.total = whole.violations.length
  bySeverity_total : whole.summary.bySeverity.total = whole.violations.length
  whole_accounted : whole.accounted = whole.violations.length
  capped_accounted : capped.accounted = whole.violations.length
  /-- No threshold tells the reports apart. -/
  threshold_eq : ∀ t : Threshold, t.reached capped.summary = t.reached whole.summary ∧
    t.failure? capped.summary = t.failure? whole.summary ∧
    t.verdictText capped.summary = t.verdictText whole.summary
  /-- As long as the violations can be counted in a word, a run fails if
  one of them is at least as severe as its threshold. -/
  failure_iff : whole.violations.length < 0x8000000000000000 → ∀ t : Threshold,
    t.reached whole.summary =
        whole.violations.countP (fun v => Severity.rankOfName v.severity ≤ t.rank) ∧
      ((t.failure? whole.summary).isSome = true ↔ ∃ severity, t = some severity ∧
        ∃ v ∈ whole.violations, Severity.rankOfName v.severity ≤ severity.rank)

section Outcomes

variable (assembly : String) (o : Options) (outcomes : List (Except AnalysisError TestResult))

/-- **A cap only hides violations**, in the report of any outcomes. -/
theorem hides_ofOutcomes {unlimited limit : Int} (hunlimited : unlimited ≤ 0) (hlimit : 0 < limit)
    (hfull : ∀ r ∈ resultsOf outcomes, r.omitted = 0) :
    Hides limit (ofOutcomes assembly { o with maxViolations := unlimited } outcomes)
      (ofOutcomes assembly { o with maxViolations := limit } outcomes) := by
  have hwhole : limitViolations unlimited (resultsOf outcomes) = (resultsOf outcomes, false) :=
    if_pos hunlimited
  have hcapped : limitViolations limit (resultsOf outcomes) =
      capViolations limit.toNat (resultsOf outcomes) := if_neg (Int.not_le.2 hlimit)
  have hcut := forall₂_cutTo_limitViolations hfull limit
  have hself := forall₂_cutTo_limitViolations hfull unlimited
  have hviolations := flatMap_capViolations limit.toNat (resultsOf outcomes)
  have hlength : (((capViolations limit.toNat (resultsOf outcomes)).1.flatMap
      (·.violations)).length : Int) =
        min limit ((resultsOf outcomes).flatMap (·.violations)).length := by
    rw [hviolations, List.length_take]
    omega
  have hdrops := capViolations_drops_iff limit.toNat (resultsOf outcomes)
  rw [← Int.ofNat_lt, Int.toNat_of_nonneg (Int.le_of_lt hlimit)] at hdrops
  rw [hcapped] at hcut
  rw [hwhole] at hself
  simp only [ofOutcomes, hwhole, hcapped]
  -- both summaries are taken of the outcomes, so what is said of them holds by definition
  exact
    { assembly_eq := rfl
      errors_eq := rfl
      violations_eq := hviolations
      length_eq := hlength
      results := (List.forall₂_and_left _ _).2 ⟨hfull, hcut⟩
      truncated_iff := hdrops
      warnings_eq := congrArg some (if_congr hdrops rfl rfl)
      whole_truncated := rfl
      whole_warnings := rfl
      summary_eq := rfl
      total_eq := rfl
      byRule_total := (Tally.total_ofNames _).trans (by rw [List.length_map]; rfl)
      bySeverity_total := (Tally.total_ofNames _).trans (by rw [List.length_map]; rfl)
      whole_accounted := foldr_eq_length_of_cutTo hself
      capped_accounted := foldr_eq_length_of_cutTo hcut
      threshold_eq := fun t => ⟨rfl, rfl, rfl⟩
      failure_iff := Threshold.isSome_failure?_of }

end Outcomes

end Report

namespace Assembly

/-- Nothing is omitted before a cap. -/
theorem omitted_of_mem_resultsOf (a : Assembly) (o : Options) (tests : List Method) :
    ∀ r ∈ resultsOf (tests.map (a.analyzeTest o)), r.omitted = 0 := by
  intro r hr
  obtain ⟨m, -, hm⟩ := exists_mem_of_forall₂ (forall₂_resultsOf (a.analyzeTest o) tests) hr
  obtain ⟨tc, findings, -, -, rfl⟩ := analyzeTest_eq_ok.1 hm
  rfl

/-- **The cap only hides violations.** Of two runs that differ only in
their caps, one of which sets no limit, either both fail alike or both
give a report, and the capped report hides what is beyond its limit. -/
theorem cap_only_hides (a : Assembly) (o : Options) {unlimited limit : Int}
    (hunlimited : unlimited ≤ 0) (hlimit : 0 < limit) :
    (∃ failure, a.analyze { o with maxViolations := unlimited } = .error failure ∧
      a.analyze { o with maxViolations := limit } = .error failure) ∨
    ∃ whole capped, a.analyze { o with maxViolations := unlimited } = .ok whole ∧
      a.analyze { o with maxViolations := limit } = .ok capped ∧
      Report.Hides limit whole capped := by
  have hhides := Report.hides_ofOutcomes a.name o ((a.selectedTests o).map (a.analyzeTest o))
    hunlimited hlimit (a.omitted_of_mem_resultsOf o _)
  -- the cap is read only when the outcomes are put together
  by_cases hfound : o.test ≠ "" ∧ (a.selectedTests o).isEmpty
  · exact Or.inl ⟨_, if_pos hfound, if_pos hfound⟩
  by_cases hcancelled : o.cancelled ∧ !(a.selectedTests o).isEmpty
  · exact Or.inl ⟨_, (if_neg hfound).trans (if_pos hcancelled),
      (if_neg hfound).trans (if_pos hcancelled)⟩
  · exact Or.inr ⟨_, _, (if_neg hfound).trans (if_neg hcancelled),
      (if_neg hfound).trans (if_neg hcancelled), hhides⟩

/-- Two tests that return at once. -/
def idleTests : Assembly where
  name := "A"
  methods := ["M", "N"].map fun name =>
    { signature := { owner := "T", name, hasThis := false, returns := "void", params := [] }
      attributes := ["Xunit.FactAttribute"]
      locals := 0
      body := [⟨0, { name := "ret", flow := .ret, pop := .varies, push := .fixed 0 }, .nothing,
        none⟩] }

/-- The second of two violations is hidden. -/
theorem cap_only_hides_idleTests :
    ∃ whole capped, idleTests.analyze {} = .ok whole ∧
      idleTests.analyze { maxViolations := 1 } = .ok capped ∧
      whole.summary.totalViolations = 2 ∧ capped.summary.truncated = true ∧
      Report.Hides 1 whole capped := by
  have hidle : ∀ m ∈ idleTests.selectedTests {}, ∃ r, idleTests.analyzeTest {} m = .ok r ∧
      r.violations.length = 1 := by
    have hall : ((idleTests.selectedTests {}).all fun m => ControlFlow.follows m [[]] &&
        ((TestCase.mk idleTests .builtin ⟨m, 0, [(0, [])]⟩).findings Checks.standard).toOption.map
          (·.map (·.smell.rule)) == some [.noAsserts]) = true := by
      decide +kernel
    intro m hm
    obtain ⟨hfollows, hrules⟩ := Bool.and_eq_true_iff.1 (List.all_eq_true.1 hall m hm)
    obtain ⟨r, hr, hnames⟩ := exists_result_of_follows (a := idleTests) (o := {}) [(0, [])]
      (by simp [explore, Adjacency.has, Adjacency.fresh]) hfollows (eq_of_beq hrules)
    exact ⟨r, hr, by simpa using congrArg List.length hnames⟩
  rcases cap_only_hides idleTests {} (Int.le_refl 0) Int.zero_lt_one with
    ⟨failure, hfailure, -⟩ | ⟨whole, capped, hwhole, hcapped, hhides⟩
  · cases hfailure
  · have hlength : (idleTests.selectedTests {}).length = 2 := by decide +kernel
    obtain ⟨m, m', htests⟩ := List.length_eq_two.1 hlength
    obtain ⟨r, hr, hone⟩ := hidle m (by simp [htests])
    obtain ⟨r', hr', hone'⟩ := hidle m' (by simp [htests])
    have htotal : whole.summary.totalViolations = 2 := by
      rw [eq_ofOutcomes_of_analyze hwhole]
      change ((resultsOf ((idleTests.selectedTests {}).map (idleTests.analyzeTest {}))).flatMap
        (·.violations)).length = (2 : Int)
      rw [htests, List.map_cons, List.map_singleton, hr, hr']
      simp [resultsOf, hone, hone']
    refine ⟨whole, capped, hwhole, hcapped, htotal, hhides.truncated_iff.2 ?_, hhides⟩
    rw [← hhides.total_eq, htotal]
    decide

end Assembly

end SmellCheck
