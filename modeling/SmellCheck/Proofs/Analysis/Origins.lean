import SmellCheck.Proofs.Analysis.Cap
import SmellCheck.Proofs.Assembly.Linking
import SmellCheck.Proofs.Bytecode.OnLine
/-!
# Origins of violations

A violation comes from a test, a rule and an instruction of the test. A
rule reports instructions of the test, and none of them twice
(`TestCase.reportOnce_of_check`), so the violations that a report
lists have different origins, however many it leaves out.

The identifier of a violation is the digest of a key that is made from
its origin. Neither the names of rules nor labels have a colon in them,
and no two instructions of a test have one label. So a key gives back the
rule, the label and the full name of the test (`Origin.key_eq_iff`). But
tests that differ in parameters only have one full name, and their
violations of a rule at the same label have one identifier.
-/

namespace SmellCheck

/-! ## Keys -/

/-- What stands behind the last separator can be told from the rest. -/
theorem eq_of_append_cons_eq {α : Type} {sep : α} {u u' v v' : List α} (hv : sep ∉ v)
    (hv' : sep ∉ v') (h : u ++ sep :: v = u' ++ sep :: v') : u = u' ∧ v = v' := by
  rcases List.append_eq_append_iff.1 h with ⟨w, rfl, hw⟩ | ⟨w, rfl, hw⟩
  · cases w with
    | nil => simpa using hw
    | cons c w =>
      refine absurd ?_ hv
      rw [(List.cons.inj hw).2]
      simp
  · cases w with
    | nil => simpa using hw.symm
    | cons c w =>
      refine absurd ?_ hv'
      rw [(List.cons.inj hw).2]
      simp

theorem toList_violationKey (assembly test rule label : String) :
    (violationKey assembly test rule label).toList =
      ((assembly.toList ++ ':' :: test.toList) ++ ':' :: rule.toList) ++ ':' :: label.toList := by
  simp [violationKey]

/-- **A key gives back what it is made from**, if there is no colon in the
rule and in the label. The test may have colons. -/
theorem eq_of_violationKey_eq {assembly test test' rule rule' label label' : String}
    (hrule : ':' ∉ rule.toList) (hrule' : ':' ∉ rule'.toList) (hlabel : ':' ∉ label.toList)
    (hlabel' : ':' ∉ label'.toList)
    (h : violationKey assembly test rule label = violationKey assembly test' rule' label') :
    test = test' ∧ rule = rule' ∧ label = label' := by
  have hlists := congrArg String.toList h
  rw [toList_violationKey, toList_violationKey] at hlists
  obtain ⟨hlists, hlabels⟩ := eq_of_append_cons_eq hlabel hlabel' hlists
  obtain ⟨hlists, hrules⟩ := eq_of_append_cons_eq hrule hrule' hlists
  have htests := (List.cons.inj (List.append_cancel_left hlists)).2
  exact ⟨String.toList_injective htests, String.toList_injective hrules,
    String.toList_injective hlabels⟩

theorem Rule.colon_notMem_name (rule : Rule) : ':' ∉ rule.name.toList := by
  cases rule <;> decide

namespace Body

variable {body : Body} {p q : Nat}

theorem colon_notMem_label : ':' ∉ (body.label p).toList := by
  rw [label]
  cases body[p]? with
  | none => decide
  | some ins =>
    intro hcolon
    have halphabet : ':' ∉ Listing.labelAlphabet := by decide
    exact halphabet (Listing.labelOf_subset ins.offset hcolon)

/-- Offsets that differ make labels that differ. -/
theorem label_inj (hbody : (body.map (·.offset)).Nodup) (hp : p < body.length)
    (hq : q < body.length) : body.label p = body.label q ↔ p = q := by
  rw [label, label, List.getElem?_eq_getElem hp, List.getElem?_eq_getElem hq]
  change labelOf body[p].offset = labelOf body[q].offset ↔ p = q
  have hp' : p < (body.map (·.offset)).length := by rwa [List.length_map]
  have hq' : q < (body.map (·.offset)).length := by rwa [List.length_map]
  have hoffsets : (body.map (·.offset))[p] = (body.map (·.offset))[q] ↔ p = q :=
    hbody.getElem_inj_iff
  rwa [List.getElem_map, List.getElem_map, ← Listing.labelOf_injective.eq_iff] at hoffsets

end Body

/-! ## The positions that a rule reports -/

/-- **The findings are at different positions**, which are among the given
ones. -/
structure ReportOnce (positions : List Nat) (findings : List Finding) : Prop where
  nodup : (findings.map (·.position)).Nodup
  subset : findings.map (·.position) ⊆ positions

namespace ReportOnce

variable {positions : List Nat} {found more : List Finding}

theorem nil : ReportOnce positions [] :=
  ⟨List.nodup_nil, List.nil_subset _⟩

theorem singleton {f : Finding} (hf : f.position ∈ positions) : ReportOnce positions [f] :=
  ⟨List.nodup_singleton _, by simpa using hf⟩

theorem append (hfound : ReportOnce positions found) (hmore : ReportOnce positions more)
    (hnew : ∀ f ∈ more, f.position ∉ found.map (·.position)) :
    ReportOnce positions (found ++ more) where
  nodup := by
    rw [List.map_append]
    refine hfound.nodup.append hmore.nodup fun p hp hp' => ?_
    obtain ⟨f, hf, rfl⟩ := List.mem_map.1 hp'
    exact hnew f hf hp
  subset := by
    rw [List.map_append]
    exact List.append_subset.2 ⟨hfound.subset, hmore.subset⟩

theorem mono {positions' : List Nat} (h : ReportOnce positions found)
    (hpositions : positions ⊆ positions') : ReportOnce positions' found :=
  ⟨h.nodup, List.Subset.trans h.subset hpositions⟩

end ReportOnce

namespace TestCase

variable {tc : TestCase} {limit : Nat} {rule : Rule} {findings : List Finding}

/-- What is reported for a path is new. -/
theorem map_position_computedOn_sublist (body : Body) (sites : List Nat) (found : List Finding)
    (vg : ValueGraph) : ((computedOn body sites found vg).map (·.position)).Sublist
      (sites.filter fun site => !found.any (·.position == site)) := by
  rw [computedOn, List.map_filterMap]
  generalize sites.filter (fun site => !found.any (·.position == site)) = new
  induction new with
  | nil => exact .slnil
  | cons site new ih =>
    cases hcallee : computedExpectation? body vg site with
    | none => simpa [hcallee] using ih.cons site
    | some callee => simpa [hcallee] using ih

theorem reportOnce_foldl {body : Body} {sites : List Nat} (hsites : sites.Nodup)
    {graphs : List ValueGraph} {found : List Finding} (hfound : ReportOnce sites found) :
    ReportOnce sites
      (graphs.foldl (fun found vg => found ++ computedOn body sites found vg) found) := by
  induction graphs generalizing found with
  | nil => exact hfound
  | cons vg graphs ih =>
    have hsublist := map_position_computedOn_sublist body sites found vg
    refine ih (hfound.append ⟨(hsites.filter _).sublist hsublist, ?_⟩ fun f hf hp => ?_)
    · exact List.Subset.trans hsublist.subset (List.filter_subset_self _)
    · have hnew := (List.mem_filter.1 (hsublist.subset (List.mem_map_of_mem hf))).2
      obtain ⟨g, hg, hposition⟩ := List.mem_map.1 hp
      have hany : found.any (·.position == f.position) = true :=
        List.any_eq_true.2 ⟨g, hg, beq_iff_eq.2 hposition⟩
      rw [hany] at hnew
      cases hnew

/-- The longest list is one of the lists. -/
theorem longest_mem {lists : List (List Nat)} (h : lists ≠ []) : longest lists ∈ lists := by
  cases lists with
  | nil => exact absurd rfl h
  | cons sites rest =>
    rw [longest]
    induction rest generalizing sites with
    | nil => simp
    | cons next rest ih =>
      rw [List.foldl_cons]
      have := ih (if sites.length < next.length then next else sites) (by simp)
      split at this <;> grind

theorem firstBranch_lt {body : Body} (h : body ≠ []) : firstBranch body < body.length := by
  rw [firstBranch]
  cases hbranch : body.findIdx? (·.opcode.flow == .condBranch) with
  | none => exact List.length_pos_iff.2 h
  | some p => exact (List.findIdx?_eq_some_iff_findIdx_eq.1 hbranch).1

/-- **A rule reports an instruction of the test at most once.** -/
theorem reportOnce_of_check (hbody : tc.body ≠ []) (h : tc.check limit rule = .ok findings) :
    ReportOnce (List.range tc.body.length) findings := by
  have hentry : 0 ∈ List.range tc.body.length := List.mem_range.2 (List.length_pos_iff.2 hbody)
  have hsites : tc.assertionSites ⊆ List.range tc.body.length := List.filter_subset_self _
  cases rule with
  | noAsserts =>
    cases h
    rw [noAsserts]
    split
    · exact .singleton hentry
    · exact .nil
  | multipleAsserts =>
    cases h
    unfold multipleAsserts
    cases hposition : (longest (tc.paths.map tc.sitesOn))[limit]? with
    | none => simpa [hposition] using .nil
    | some position =>
      have hposition' : position ∈ tc.assertionSites := by
        have hlists : tc.paths.map tc.sitesOn ≠ [] := by
          intro hnil
          rw [hnil] at hposition
          cases hposition
        obtain ⟨path, -, hworst⟩ := List.mem_map.1 (longest_mem hlists)
        have hmem := List.mem_of_getElem? hposition
        rw [← hworst, sitesOn, List.mem_eraseDups, List.mem_filter] at hmem
        exact List.contains_iff_mem.1 hmem.2
      simpa [hposition] using .singleton (hsites hposition')
  | conditionalLogic =>
    cases h
    simp only [conditionalLogic]
    split
    · exact .nil
    · exact .singleton (List.mem_range.2 (firstBranch_lt hbody))
  | computedExpected =>
    have hexpected : tc.expectationSites ⊆ tc.assertionSites := List.filter_subset_self _
    have hnodup : tc.expectationSites.Nodup := (List.nodup_range.filter _).filter _
    change tc.computedExpected = .ok findings at h
    rw [computedExpected] at h
    split at h
    · cases h
      exact .nil
    · obtain ⟨t, -, rfl⟩ := map_eq_ok.1 h
      exact (reportOnce_foldl hnodup .nil).mono (List.Subset.trans hexpected hsites)

end TestCase

/-! ## Origins -/

/-- Where a violation comes from. -/
structure Origin where
  test : Method
  rule : Rule
  position : Nat

namespace Origin

/-- The label of the instruction. -/
def label (x : Origin) : String :=
  x.test.body.label x.position

/-- The text whose digest identifies violations with this origin. -/
def key (assembly : String) (x : Origin) : String :=
  violationKey assembly x.test.fullName x.rule.name x.label

/-- **The origins are in different tests of one name**, and do not differ
in rule and label. -/
def Collides (x y : Origin) : Prop :=
  x.test ≠ y.test ∧ x.test.fullName = y.test.fullName ∧ x.rule = y.rule ∧ x.label = y.label

/-- **Keys are equal exactly if their origins are, or collide.** -/
theorem key_eq_iff {assembly : String} {x y : Origin}
    (hx : (x.test.body.map (·.offset)).Nodup) (hxpos : x.position < x.test.body.length)
    (hypos : y.position < y.test.body.length) :
    x.key assembly = y.key assembly ↔ x = y ∨ x.Collides y := by
  constructor
  · intro h
    obtain ⟨htest, hrule, hlabel⟩ := eq_of_violationKey_eq x.rule.colon_notMem_name
      y.rule.colon_notMem_name Body.colon_notMem_label Body.colon_notMem_label h
    have hrule := Rule.name_injective hrule
    by_cases hsame : x.test = y.test
    · left
      obtain ⟨m, rule, p⟩ := x
      obtain ⟨m', rule', q⟩ := y
      cases hsame
      cases hrule
      cases (Body.label_inj hx hxpos hypos).1 hlabel
      rfl
    · exact Or.inr ⟨hsame, htest, hrule, hlabel⟩
  · rintro (rfl | ⟨-, htest, hrule, hlabel⟩)
    · rfl
    · rw [key, key, htest, hrule, hlabel]

/-- **The violation has this origin**: the rule was applied to the test and
found it at the instruction, and its identifier is from the key. -/
structure Explains (a : Assembly) (o : Options) (x : Origin) (v : Violation) : Prop where
  selected : x.test ∈ a.selectedTests o
  applied : x.rule ∈ o.effectiveChecks.rules
  instruction : x.position < x.test.body.length
  found : ∃ tc findings f, TestCase.ofMethod a o.registry x.test = .ok tc ∧
    tc.check o.effectiveChecks.limit x.rule = .ok findings ∧ f ∈ findings ∧
    f.position = x.position ∧ v = tc.violation o.severity f
  id_eq : v.id = "ts-" ++
    hexBytes ((Sha256.digest (Text.encodeUtf8 (x.key a.name).toList)).take 4)

end Origin

/-- Where a finding in a test comes from. -/
def Finding.origin (m : Method) (f : Finding) : Origin :=
  ⟨m, f.smell.rule, f.position⟩

namespace TestCase

variable {a : Assembly} {r : Registry} {m : Method} {tc : TestCase}

/-- A test case is about the method it was prepared for, and this has
instructions. -/
theorem method_eq_of_ofMethod (h : ofMethod a r m = .ok tc) :
    tc.assembly = a ∧ tc.method = m ∧ tc.body ≠ [] := by
  obtain ⟨c, hc, rfl⟩ := map_eq_ok.1 h
  have hmethod := ControlFlow.method_of_ofMethod hc
  refine ⟨rfl, hmethod, fun hnil => ?_⟩
  have hbody : m.body = [] := hmethod ▸ hnil
  rw [ControlFlow.ofMethod, hbody] at hc
  cases hc

/-- **The findings in a test have different origins**, if no rule is
applied twice. -/
theorem nodup_origins_of_findings (hbody : tc.body ≠ []) {checks : Checks} {found : List Finding}
    (h : tc.findings checks = .ok found) (hrules : checks.rules.Nodup) (m : Method) :
    (found.map (Finding.origin m)).Nodup := by
  rw [findings] at h
  generalize checks.rules = rules at h hrules
  induction rules generalizing found with
  | nil =>
    cases h
    exact List.nodup_nil
  | cons rule rules ih =>
    rw [List.flatMapM_cons] at h
    obtain ⟨own, hown, h⟩ := bind_eq_ok.1 h
    obtain ⟨rest, hrest, h⟩ := bind_eq_ok.1 h
    cases h
    have hown := mapError_eq_ok.1 hown
    obtain ⟨hrule, hrules⟩ := List.nodup_cons.1 hrules
    rw [List.map_append]
    refine List.Nodup.append ?_ (ih hrest hrules) fun x hx hx' => ?_
    · refine List.Nodup.of_map Origin.position ?_
      rw [List.map_map]
      exact (reportOnce_of_check hbody hown).nodup
    · -- the rules behind the first one find smells of their own
      obtain ⟨f, hf, rfl⟩ := List.mem_map.1 hx
      obtain ⟨g, hg, hfg⟩ := List.mem_map.1 hx'
      obtain ⟨rule', hrule', others, hothers, hg⟩ := exists_mem_of_flatMapM hrest hg
      have hsame : g.smell.rule = f.smell.rule := congrArg Origin.rule hfg
      rw [rule_of_mem_check hown hf, rule_of_mem_check (mapError_eq_ok.1 hothers) hg] at hsame
      exact hrule (hsame ▸ hrule')

end TestCase

namespace Assembly

variable {a : Assembly} {o : Options} {m : Method} {tc : TestCase}

/-- A finding in a selected test is the origin of its violation. -/
theorem explains_of_mem_findings (hm : m ∈ a.selectedTests o)
    (htc : TestCase.ofMethod a o.registry m = .ok tc) {found : List Finding}
    (hfound : tc.findings o.effectiveChecks = .ok found) {f : Finding} (hf : f ∈ found) :
    (f.origin m).Explains a o (tc.violation o.severity f) := by
  obtain ⟨hassembly, rfl, hbody⟩ := TestCase.method_eq_of_ofMethod htc
  obtain ⟨rule, hrule, own, hown, hf⟩ := exists_mem_of_flatMapM hfound hf
  have hown := mapError_eq_ok.1 hown
  obtain rfl := TestCase.rule_of_mem_check hown hf
  have hposition := (TestCase.reportOnce_of_check hbody hown).subset (List.mem_map_of_mem hf)
  exact
    { selected := hm
      applied := hrule
      instruction := List.mem_range.1 hposition
      found := ⟨tc, own, f, htc, hown, hf, rfl, rfl⟩
      id_eq := by
        rw [← hassembly]
        rfl }

/-- **The violations of tests have origins in these tests**, which differ
if no rule is applied twice. -/
theorem exists_origins {tests : List Method} (htests : tests ⊆ a.selectedTests o)
    (hnodup : tests.Nodup) :
    ∃ origins : List Origin, List.Forall₂ (Origin.Explains a o) origins
        ((resultsOf (tests.map (a.analyzeTest o))).flatMap (·.violations)) ∧
      (∀ x ∈ origins, x.test ∈ tests) ∧
      (o.effectiveChecks.rules.Nodup → origins.Nodup) := by
  induction tests with
  | nil => exact ⟨[], .nil, by simp, fun _ => List.nodup_nil⟩
  | cons m tests ih =>
    obtain ⟨hm, htests⟩ := List.cons_subset.1 htests
    obtain ⟨hnew, hnodup⟩ := List.nodup_cons.1 hnodup
    obtain ⟨origins, hexplains, horigins, hdiffer⟩ := ih htests hnodup
    cases houtcome : a.analyzeTest o m with
    | error e =>
      refine ⟨origins, ?_, fun x hx => List.mem_cons_of_mem m (horigins x hx), hdiffer⟩
      simpa [resultsOf, houtcome] using hexplains
    | ok r =>
      obtain ⟨tc, found, htc, hfound, rfl⟩ := analyzeTest_eq_ok.1 houtcome
      refine ⟨found.map (Finding.origin m) ++ origins, ?_, ?_, fun hrules => ?_⟩
      · have hown : List.Forall₂ (Origin.Explains a o) (found.map (Finding.origin m))
            (found.map (tc.violation o.severity)) := by
          rw [List.forall₂_map_left_iff, List.forall₂_map_right_iff]
          exact List.forall₂_same.2 fun f hf => explains_of_mem_findings hm htc hfound hf
        have hlisted := List.rel_append hown hexplains
        simpa [resultsOf, houtcome, TestResult.violations] using hlisted
      · intro x hx
        rcases List.mem_append.1 hx with hx | hx
        · obtain ⟨f, -, rfl⟩ := List.mem_map.1 hx
          exact List.mem_cons_self
        · exact List.mem_cons_of_mem m (horigins x hx)
      · obtain ⟨-, -, hbody⟩ := TestCase.method_eq_of_ofMethod htc
        refine (TestCase.nodup_origins_of_findings hbody hfound hrules m).append
          (hdiffer hrules) fun x hx hx' => ?_
        obtain ⟨f, -, rfl⟩ := List.mem_map.1 hx
        exact hnew (horigins _ hx')

end Assembly

namespace Report

variable {a : Assembly} {o : Options} {report : Report} {d : ListingDocument}

/-- A report lists the first violations of all outcomes. -/
theorem exists_violations_eq_take (assembly : String) (o : Options)
    (outcomes : List (Except AnalysisError TestResult)) :
    ∃ n, (ofOutcomes assembly o outcomes).violations =
      ((resultsOf outcomes).flatMap (·.violations)).take n := by
  change ∃ n, (limitViolations o.maxViolations (resultsOf outcomes)).1.flatMap _ = _
  rw [limitViolations]
  split
  · exact ⟨_, (List.take_length).symm⟩
  · exact ⟨_, flatMap_capViolations _ _⟩

/-- **Keys tell violations apart, unless tests share their full name.** The
violations that a report on an assembly lists have origins, from which
their identifiers are taken; the origins differ if no rule is applied
twice. Two of them have the same key exactly if they are equal or collide:
only in two tests of one full name. So where full names differ, all keys
do. -/
theorem key_eq_iff_of_analyze (hload : Assembly.ofDocument d = .ok a)
    (h : a.analyze o = .ok report) :
    ∃ origins : List Origin, List.Forall₂ (Origin.Explains a o) origins report.violations ∧
      (o.effectiveChecks.rules.Nodup → origins.Nodup) ∧
      (∀ x ∈ origins, ∀ y ∈ origins,
        (x.key a.name = y.key a.name ↔ x = y ∨ x.Collides y)) ∧
      (o.effectiveChecks.rules.Nodup → ((a.selectedTests o).map (·.fullName)).Nodup →
        (origins.map (·.key a.name)).Nodup) := by
  have htests : (a.selectedTests o).Nodup :=
    ((Assembly.nodup_of_ofDocument hload).of_map _).sublist (a.selectedTests_sublist o)
  obtain ⟨all, hexplains, -, hdiffer⟩ := Assembly.exists_origins (List.Subset.refl _) htests
  obtain ⟨n, hn⟩ := exists_violations_eq_take a.name o ((a.selectedTests o).map (a.analyzeTest o))
  rw [← Assembly.eq_ofOutcomes_of_analyze h] at hn
  have hlisted : List.Forall₂ (Origin.Explains a o) (all.take n) report.violations :=
    hn ▸ List.forall₂_take n hexplains
  have hmem : ∀ x ∈ all.take n, ∃ v, x.Explains a o v := fun x hx => by
    obtain ⟨v, -, hv⟩ := exists_mem_of_forall₂ hlisted.flip hx
    exact ⟨v, hv⟩
  have hkey : ∀ x ∈ all.take n, ∀ y ∈ all.take n,
      (x.key a.name = y.key a.name ↔ x = y ∨ x.Collides y) := by
    intro x hx y hy
    obtain ⟨v, hv⟩ := hmem x hx
    obtain ⟨v', hv'⟩ := hmem y hy
    obtain ⟨listing, hread⟩ := Assembly.exists_read_of_ofDocument hload
      ((a.selectedTests_sublist o).subset hv.selected)
    exact Origin.key_eq_iff (Body.nodup_offsets_of_read hread) hv.instruction hv'.instruction
  have hnodup : o.effectiveChecks.rules.Nodup → (all.take n).Nodup := fun hrules =>
    (hdiffer hrules).sublist (List.take_sublist n all)
  refine ⟨all.take n, hlisted, hnodup, hkey, fun hrules hnames => ?_⟩
  refine List.Nodup.map_on (fun x hx y hy hxy => ?_) (hnodup hrules)
  rcases (hkey x hx y hy).1 hxy with heq | ⟨hne, hname, -, -⟩
  · exact heq
  · obtain ⟨v, hv⟩ := hmem x hx
    obtain ⟨v', hv'⟩ := hmem y hy
    exact absurd (List.inj_on_of_nodup_map hnames hv.selected hv'.selected hname) hne

/-! ## Overloads -/

/-- Two tests that differ in parameters only. -/
def overloadListing : ListingDocument :=
  Assembly.testDocument 0 [("void T::M()", "ret"), ("void T::M(int32)", "ret")]

/-- Both tests make no assertion. -/
theorem exists_report_overloadListing :
    ∃ a report m m' v v', Assembly.ofDocument overloadListing = .ok a ∧ a.analyze {} = .ok report ∧
      m.signature.text = "void T::M()" ∧ m'.signature.text = "void T::M(int32)" ∧
      report.violations = [v, v'] ∧ Origin.Explains a {} ⟨m, .noAsserts, 0⟩ v ∧
      Origin.Explains a {} ⟨m', .noAsserts, 0⟩ v' ∧ m.fullName = m'.fullName ∧
      m.body.label 0 = m'.body.label 0 := by
  have hload : ((Assembly.ofDocument overloadListing).toOption.any fun a =>
      ((a.selectedTests {}).map fun m => (m.signature.text, m.fullName, m.body.label 0)) ==
        [("void T::M()", "T::M", "IL_0000"), ("void T::M(int32)", "T::M", "IL_0000")] &&
      (a.selectedTests {}).all fun m => ControlFlow.follows m [[]] &&
        ((TestCase.mk a .builtin ⟨m, 0, [(0, [])]⟩).findings Checks.standard).toOption
          == some [⟨.noAssertion, 0⟩]) = true := by
    decide +kernel
  obtain ⟨a, ha, h⟩ := (Option.any_eq_true _ _).1 hload
  simp only [Bool.and_eq_true, beq_iff_eq, List.all_eq_true, toOption_eq_some] at h
  obtain ⟨htexts, hfindings⟩ := h
  have hfound : ∀ t ∈ a.selectedTests {}, ∃ v r, Origin.Explains a {} ⟨t, .noAsserts, 0⟩ v ∧
      a.analyzeTest {} t = .ok r ∧ r.violations = [v] := by
    intro t ht
    obtain ⟨hfollows, hfinding⟩ := hfindings t ht
    have hflow := ControlFlow.ofMethod_of_follows [(0, [])] hfollows
      (by simp [explore, Adjacency.has, Adjacency.fresh])
    have htc : TestCase.ofMethod a .builtin t = .ok _ := map_eq_ok.2 ⟨_, hflow, rfl⟩
    exact ⟨_, _, Assembly.explains_of_mem_findings ht htc hfinding List.mem_cons_self,
      Assembly.analyzeTest_eq_ok.2 ⟨_, _, htc, hfinding, rfl⟩, rfl⟩
  have hlength : (a.selectedTests {}).length = 2 := by
    rw [← List.length_map, htexts]
    rfl
  obtain ⟨m, m', htests⟩ := List.length_eq_two.1 hlength
  obtain ⟨v, r, hv, hr, hviolations⟩ := hfound m (by simp [htests])
  obtain ⟨v', r', hv', hr', hviolations'⟩ := hfound m' (by simp [htests])
  obtain ⟨report, hreport⟩ : ∃ report, a.analyze {} = .ok report :=
    Assembly.exists_report rfl (absurd rfl)
  have hlisted : report.violations = [v, v'] := by
    rw [Assembly.eq_ofOutcomes_of_analyze hreport, htests, List.map_cons, List.map_singleton, hr,
      hr']
    change [r, r'].flatMap (·.violations) = [v, v']
    simp [hviolations, hviolations']
  simp only [htests, List.map_cons, List.map_nil, List.cons.injEq, Prod.mk.injEq, and_true]
    at htexts
  obtain ⟨⟨htext, hname, hlabel⟩, htext', hname', hlabel'⟩ := htexts
  exact ⟨a, report, m, m', v, v', toOption_eq_some.1 ha, hreport, htext, htext', hlisted, hv, hv',
    hname.trans hname'.symm, hlabel.trans hlabel'.symm⟩

/-- Each test is the origin of one violation. -/
theorem key_eq_iff_of_analyze_overloadListing :
    ∃ a report origins, Assembly.ofDocument overloadListing = .ok a ∧ a.analyze {} = .ok report ∧
      report.violations.length = 2 ∧
      List.Forall₂ (Origin.Explains a {}) origins report.violations ∧ origins.Nodup ∧
      ∀ x ∈ origins, ∀ y ∈ origins,
        (x.key a.name = y.key a.name ↔ x = y ∨ x.Collides y) := by
  obtain ⟨a, report, m, m', v, v', hload, hreport, -, -, hlisted, -⟩ :=
    exists_report_overloadListing
  obtain ⟨origins, hexplains, hnodup, hkey, -⟩ := key_eq_iff_of_analyze hload hreport
  exact ⟨a, report, origins, hload, hreport, by rw [hlisted]; rfl, hexplains, hnodup (by decide),
    hkey⟩

/-- **Violations of two tests have one key.** The tests differ in
parameters only, so one identifier stands for both violations. -/
theorem exists_key_eq_of_overloads :
    ∃ a report x y v v', Assembly.ofDocument overloadListing = .ok a ∧ a.analyze {} = .ok report ∧
      report.violations = [v, v'] ∧ Origin.Explains a {} x v ∧ Origin.Explains a {} y v' ∧
      x.test.signature.text = "void T::M()" ∧ y.test.signature.text = "void T::M(int32)" ∧
      x.key a.name = y.key a.name ∧ v.id = v'.id := by
  obtain ⟨a, report, m, m', v, v', hload, hreport, htext, htext', hlisted, hv, hv', hname,
    hlabel⟩ := exists_report_overloadListing
  have hkey : Origin.key a.name ⟨m, .noAsserts, 0⟩ = Origin.key a.name ⟨m', .noAsserts, 0⟩ := by
    simp only [Origin.key, Origin.label, hname, hlabel]
  exact ⟨a, report, _, _, v, v', hload, hreport, hlisted, hv, hv', htext, htext', hkey,
    by rw [hv.id_eq, hv'.id_eq, hkey]⟩

end Report

end SmellCheck
