import SmellCheck.Report.Tree
import SmellCheck.Proofs.Digraph.Chains
/-!
# Chains of report nodes

Above each lowest node of a report there is a chain of at most four nodes
that ends at the assembly. The children of a node are the nodes right
below it on the chains, so they can be read off the records of the report
one by one (`Report.children`), if each record is found again by the
signature of its test (`Report.SignaturesDiffer`).
-/

namespace SmellCheck

namespace Report

variable {r : Report}

/-! ## Chains -/

/-- The node above all. -/
def rootNode (r : Report) : ReportNode := .assembly r.assembly

/-- The node above a test. -/
def groupNode (r : Report) (signature : String) : ReportNode :=
  if (r.error? signature).isSome then .failed
  else .type (((r.result? signature).map (·.target.type)).getD "")

/-- The node above a node. -/
def above? (r : Report) : ReportNode → Option ReportNode
  | .assembly _ => none
  | .type _ => some r.rootNode
  | .failed => some r.rootNode
  | .test signature => some (r.groupNode signature)
  | .violation signature _ => some (.test signature)

theorem parent?_grouper (n : ReportNode) : r.grouper.parent? n = r.above? n := by
  cases n with
  | assembly => rfl
  | type => rfl
  | failed => rfl
  | test signature =>
    have hrules : r.grouper.group (r.grouper.tag (.test signature)) =
        { guarded := [(r.hasFailed, fun _ => .failed)], fallback := some r.typeOf } := rfl
    rw [Grouper.parent?, hrules, above?, groupNode]
    cases hfailed : (r.error? signature).isSome <;> simp [List.find?, hasFailed, typeOf, hfailed]
  | violation => rfl

/-- A node and the nodes above it. -/
def chain (r : Report) : ReportNode → List ReportNode
  | .test signature => [.test signature, r.groupNode signature, r.rootNode]
  | .violation signature index =>
    [.violation signature index, .test signature, r.groupNode signature, r.rootNode]
  | n => n :: (r.above? n).toList

/-- The chain above a node of the tree ends at the assembly. -/
theorem walk_chain {n : ReportNode} (hn : ∀ name, n = .assembly name → name = r.assembly) :
    Walk r.grouper.Parent n r.rootNode (r.chain n) := by
  have hstep : ∀ n m, r.above? n = some m → r.grouper.Parent n m := fun n m h =>
    (parent?_grouper n).trans h
  have hgroup : ∀ signature, r.above? (r.groupNode signature) = some r.rootNode := by
    intro signature
    rw [groupNode]
    split <;> rfl
  cases n with
  | assembly name =>
    obtain rfl := hn name rfl
    exact .single _
  | type name => exact .cons (hstep _ _ rfl) (.single _)
  | failed => exact .cons (hstep _ _ rfl) (.single _)
  | test signature => exact .cons (hstep _ _ rfl) (.cons (hstep _ _ (hgroup signature)) (.single _))
  | violation signature index =>
    exact .cons (hstep _ _ rfl) (.cons (hstep _ _ rfl)
      (.cons (hstep _ _ (hgroup signature)) (.single _)))

/-! ## Records of tests with different signatures -/

/-- No two records are about tests with the same signature. -/
def SignaturesDiffer (r : Report) : Prop :=
  (r.results.map (·.target.signature) ++ r.errors.map (·.target.signature)).Nodup

/-- A record is found by a key that no other record has. -/
theorem find?_reverse_eq_some {α : Type} {key : α → String} {l : List α} (h : (l.map key).Nodup)
    {x : α} (hx : x ∈ l) : l.reverse.find? (key · == key x) = some x := by
  cases hfound : l.reverse.find? (key · == key x) with
  | none =>
    have hnone := List.find?_eq_none.1 hfound x (List.mem_reverse.2 hx)
    exact absurd (beq_self_eq_true (key x)) hnone
  | some y =>
    have hy : y ∈ l := List.mem_reverse.1 (List.mem_of_find?_eq_some hfound)
    have hkey : key y = key x := by simpa using List.find?_some hfound
    rw [List.inj_on_of_nodup_map h hy hx hkey]

theorem find?_reverse_eq_none {α : Type} {key : α → String} {l : List α} {s : String}
    (h : s ∉ l.map key) : l.reverse.find? (key · == s) = none := by
  refine List.find?_eq_none.2 fun y hy hkey => h ?_
  exact List.mem_map.2 ⟨y, List.mem_reverse.1 hy, by simpa using hkey⟩

namespace SignaturesDiffer

variable (h : r.SignaturesDiffer)
include h

theorem result?_eq {result : TestResult} (hr : result ∈ r.results) :
    r.result? result.target.signature = some result :=
  find?_reverse_eq_some (List.nodup_append.1 h).1 hr

theorem error?_eq {e : AnalysisError} (he : e ∈ r.errors) :
    r.error? e.target.signature = some e :=
  find?_reverse_eq_some (List.nodup_append.1 h).2.1 he

theorem error?_eq_none {result : TestResult} (hr : result ∈ r.results) :
    r.error? result.target.signature = none :=
  find?_reverse_eq_none fun hmem =>
    (List.nodup_append.1 h).2.2 _ (List.mem_map_of_mem hr) _ hmem rfl

theorem result?_eq_none {e : AnalysisError} (he : e ∈ r.errors) :
    r.result? e.target.signature = none :=
  find?_reverse_eq_none fun hmem =>
    (List.nodup_append.1 h).2.2 _ hmem _ (List.mem_map_of_mem he) rfl

/-- A violation is found by its place in the result. -/
theorem violation?_eq {result : TestResult} (hr : result ∈ r.results) (index : Nat) :
    r.violation? result.target.signature index = result.violations[index]? := by
  cases hfound : r.violation? result.target.signature index with
  | none => simpa using (List.findSome?_eq_none_iff.1 hfound result (by simpa using hr)).symm
  | some v =>
    obtain ⟨other, hother, hv⟩ := List.exists_of_findSome?_eq_some hfound
    split at hv
    · rename_i hsame
      -- the only result with this signature
      have heq : other = result := List.inj_on_of_nodup_map (List.nodup_append.1 h).1
        (List.mem_reverse.1 hother) hr (beq_iff_eq.1 hsame)
      rw [← hv, heq]
    · cases hv

theorem groupNode_result {result : TestResult} (hr : result ∈ r.results) :
    r.groupNode result.target.signature = .type result.target.type := by
  rw [groupNode, h.error?_eq_none hr, h.result?_eq hr]
  rfl

theorem groupNode_error {e : AnalysisError} (he : e ∈ r.errors) :
    r.groupNode e.target.signature = .failed := by
  rw [groupNode, h.error?_eq he]
  rfl

end SignaturesDiffer

/-! ## Children -/

/-- Parts that are left out on a condition. -/
theorem flatMap_ite {α β : Type} (p : α → Prop) [DecidablePred p] (f : α → List β) (l : List α) :
    l.flatMap (fun a => if p a then f a else []) = (l.filter p).flatMap f := by
  induction l with
  | nil => rfl
  | cons a l ih =>
    rw [List.flatMap_cons, ih]
    by_cases ha : p a <;> simp [ha]

/-- The nodes of the violations that a result lists. -/
def violationNodes (result : TestResult) : List ReportNode :=
  (List.range result.violations.length).map (.violation result.target.signature)

/-- The children that a result adds below a node. -/
def resultChildren (r : Report) (result : TestResult) : ReportNode → List ReportNode
  | .assembly name => if r.assembly = name then [.type result.target.type] else []
  | .type name => if result.target.type = name then [.test result.target.signature] else []
  | .failed => []
  | .test signature => if result.target.signature = signature then violationNodes result else []
  | .violation _ _ => []

/-- The children that an error adds below a node. -/
def errorChildren (r : Report) (e : AnalysisError) : ReportNode → List ReportNode
  | .assembly name => if r.assembly = name then [.failed] else []
  | .failed => [.test e.target.signature]
  | _ => []

/-- The children of a node, in the order of the records that add them. -/
def children (r : Report) (n : ReportNode) : List ReportNode :=
  (r.results.flatMap (r.resultChildren · n) ++ r.errors.flatMap (r.errorChildren · n)).eraseDups

theorem nodup_violationNodes (result : TestResult) : (violationNodes result).Nodup :=
  List.nodup_range.map fun _ _ hij => (ReportNode.violation.inj hij).2

theorem nodup_resultChildren (r : Report) (result : TestResult) (n : ReportNode) :
    (r.resultChildren result n).Nodup := by
  cases n with
  | test signature =>
    rw [resultChildren]
    split
    · exact nodup_violationNodes result
    · exact List.nodup_nil
  | assembly | type =>
    rw [resultChildren]
    split <;> simp
  | failed | violation => exact List.nodup_nil

theorem mem_resultLeaves {result : TestResult} {leaf : ReportNode}
    (h : leaf ∈ resultLeaves result) :
    leaf = .test result.target.signature ∨ leaf ∈ violationNodes result := by
  rw [resultLeaves] at h
  split at h
  · exact Or.inl (List.mem_singleton.1 h)
  · exact Or.inr h

theorem mem_resultLeaves_of_mem {result : TestResult} {leaf : ReportNode}
    (h : leaf ∈ violationNodes result) : leaf ∈ resultLeaves result := by
  have hsome : ¬ result.violations.isEmpty = true := by
    intro hempty
    rw [violationNodes, List.isEmpty_iff.1 hempty] at h
    cases h
  rw [resultLeaves, if_neg hsome]
  exact h

theorem resultLeaves_ne_nil (result : TestResult) : resultLeaves result ≠ [] := by
  rw [resultLeaves]
  split
  · exact List.cons_ne_nil _ _
  · rename_i hne
    simpa using hne

/-- Above its violations a result adds a test below its type and the type
below the assembly, however many chains pass them. -/
theorem eraseDups_chains_of_ne_test (h : r.SignaturesDiffer) {result : TestResult}
    (hr : result ∈ r.results) {n : ReportNode} (hn : ∀ signature, n ≠ .test signature) :
    (((resultLeaves result).flatMap r.chain).filter (r.above? · = some n)).eraseDups =
      r.resultChildren result n := by
  have hgroup := h.groupNode_result hr
  have hleaf : ∀ leaf ∈ resultLeaves result,
      (r.chain leaf).filter (r.above? · = some n) = r.resultChildren result n := by
    intro leaf hleaf
    cases n with
    | test signature => exact absurd rfl (hn signature)
    | _ =>
      rcases mem_resultLeaves hleaf with rfl | hleaf
      · simp [chain, above?, hgroup, resultChildren, rootNode, List.filter_cons]
      · obtain ⟨index, -, rfl⟩ := List.mem_map.1 hleaf
        simp [chain, above?, hgroup, resultChildren, rootNode, List.filter_cons]
  -- all chains of the result add the same, so the first one adds everything
  rw [List.filter_flatMap, List.flatMap_congr hleaf,
    eraseDups_flatMap_const (resultLeaves_ne_nil result),
    eraseDups_of_nodup (nodup_resultChildren r result n)]

/-- Below its test a result adds its violations. -/
theorem filter_chains_of_test (h : r.SignaturesDiffer) {result : TestResult}
    (hr : result ∈ r.results) (signature : String) :
    ((resultLeaves result).flatMap r.chain).filter (r.above? · = some (.test signature)) =
      r.resultChildren result (.test signature) := by
  have hgroup := h.groupNode_result hr
  rw [resultLeaves, resultChildren]
  split
  · rename_i hempty
    simp [chain, above?, hgroup, rootNode, violationNodes, List.isEmpty_iff.1 hempty]
  · simp only [List.flatMap_map, List.filter_flatMap]
    by_cases hsame : result.target.signature = signature
    · obtain rfl := hsame
      simp [chain, above?, hgroup, rootNode, violationNodes, List.map_eq_flatMap]
    · simp [chain, above?, hgroup, rootNode, hsame]

theorem filter_chain_error (h : r.SignaturesDiffer) {e : AnalysisError} (he : e ∈ r.errors)
    (n : ReportNode) :
    (r.chain (.test e.target.signature)).filter (r.above? · = some n) = r.errorChildren e n := by
  have hgroup := h.groupNode_error he
  cases n <;> simp [chain, above?, hgroup, errorChildren, rootNode, List.filter_cons]

/-- **The chains of a report pass the children that its records add**, in
the order of the records. -/
theorem eraseDups_filter_chains (h : r.SignaturesDiffer) (n : ReportNode) :
    ((r.leaves.flatMap r.chain).filter (r.above? · = some n)).eraseDups = r.children n := by
  let passed : List ReportNode → List ReportNode := fun nodes =>
    (nodes.flatMap r.chain).filter (r.above? · = some n)
  have hleaves : passed r.leaves = passed (r.results.flatMap resultLeaves ++
      r.errors.map fun e => .test e.target.signature) := by
    rw [leaves]
    split
    · rename_i hempty
      rw [List.isEmpty_iff.1 hempty]
      rfl
    · rfl
  have hsplit : passed r.leaves = r.results.flatMap (fun result => passed (resultLeaves result)) ++
      r.errors.flatMap fun e => passed [.test e.target.signature] := by
    rw [hleaves]
    simp only [passed, List.flatMap_append, List.flatMap_assoc, List.filter_flatMap,
      List.flatMap_map, List.flatMap_singleton]
  refine (congrArg List.eraseDups hsplit).trans (eraseDups_append_congr
    (eraseDups_flatMap_congr fun result hr => ?_) (congrArg List.eraseDups ?_))
  · rw [eraseDups_of_nodup (nodup_resultChildren r result n)]
    by_cases hn : ∃ signature, n = .test signature
    · obtain ⟨signature, rfl⟩ := hn
      exact (congrArg List.eraseDups (filter_chains_of_test h hr signature)).trans
        (eraseDups_of_nodup (nodup_resultChildren r result _))
    · exact eraseDups_chains_of_ne_test h hr fun signature hsignature => hn ⟨signature, hsignature⟩
  · refine List.flatMap_congr fun e he => ?_
    simp only [passed, List.flatMap_singleton]
    exact filter_chain_error h he n

end Report

end SmellCheck
