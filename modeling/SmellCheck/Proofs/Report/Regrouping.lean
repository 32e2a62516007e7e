import SmellCheck.Proofs.Analysis.Results
import SmellCheck.Proofs.Assembly.Linking
import SmellCheck.Proofs.Flow.Control
import SmellCheck.Proofs.Report.Chains
/-!
# The tree of a report

A report lists results and errors; its tree groups them. The chains above
its lowest nodes all end at the assembly, so folding always succeeds, and
the chains tell the children of each node in the order of the report.

In a report on a loaded assembly no two tests have the same signature, so
every record has a node of its own, and the node leads back to the record
(`Report.Regroups`).
-/

namespace SmellCheck

/-! ## Keys -/

/-- A text is told from the number that is written behind it. -/
theorem eq_of_append_repr {s s' : String} {i j : Nat}
    (h : s ++ "#" ++ Nat.repr i = s' ++ "#" ++ Nat.repr j) : s = s' ∧ i = j := by
  have hno : ∀ k, '#' ∉ (Nat.toDigits 10 k).reverse := fun k hk =>
    absurd (Nat.isDigit_of_mem_toDigits (by omega) (by omega) (List.mem_reverse.1 hk)) (by decide)
  -- read from behind, the number ends at the first mark
  have hcut : ∀ (t : String) (k : Nat),
      Text.cut? ['#'] (t ++ "#" ++ Nat.repr k).toList.reverse =
        some ((Nat.toDigits 10 k).reverse, t.toList.reverse) := by
    intro t k
    have hsplit : (t ++ "#" ++ Nat.repr k).toList.reverse =
        (Nat.toDigits 10 k).reverse ++ '#' :: t.toList.reverse := by
      simp [String.toList_append, Nat.toList_repr]
    rw [hsplit, Text.cut?_singleton (hno k)]
  have hparts := (hcut s i).symm.trans (h ▸ hcut s' j)
  simp only [Option.some_inj, Prod.mk.injEq, List.reverse_inj, String.toList_inj] at hparts
  refine ⟨hparts.2, ?_⟩
  rw [← Nat.ofDigitChars_toDigits (n := i) (by omega : 1 < 10) (by omega), hparts.1,
    Nat.ofDigitChars_toDigits (by omega) (by omega)]

/-- **Kind and key tell nodes apart.** -/
theorem ReportNode.eq_of_key_eq {n m : ReportNode} (hkind : n.kind = m.kind)
    (hkey : n.key = m.key) : n = m := by
  cases n <;> cases m
  case violation.violation signature index signature' index' =>
    obtain ⟨rfl, rfl⟩ := eq_of_append_repr hkey
    rfl
  all_goals simp_all [kind, key]

namespace Report

variable {r : Report}

/-! ## The tree -/

/-- The declaring types of the results, in the order of first
appearance. -/
def types (r : Report) : List String := (r.results.map (·.target.type)).eraseDups

/-- The node for the tests that could not be analyzed, if there are
any. -/
def failedNodes (r : Report) : List ReportNode := if r.errors.isEmpty then [] else [.failed]

/-- The nodes of all records and groups. -/
def recordNodes (r : Report) : List ReportNode :=
  r.rootNode :: r.types.map .type ++ r.failedNodes ++
    r.results.flatMap (fun result => .test result.target.signature :: violationNodes result) ++
    r.errors.map fun e => .test e.target.signature

theorem mem_types {name : String} :
    name ∈ r.types ↔ ∃ result ∈ r.results, result.target.type = name := by
  rw [types, List.mem_eraseDups, List.mem_map]

theorem mem_failedNodes {n : ReportNode} : n ∈ r.failedNodes ↔ ∃ e ∈ r.errors, n = .failed := by
  rw [failedNodes]
  split
  · rename_i hnone
    simp [List.isEmpty_iff.1 hnone]
  · rename_i hsome
    obtain ⟨e, he⟩ := List.exists_mem_of_ne_nil r.errors (by simpa using hsome)
    rw [List.mem_singleton]
    exact ⟨fun hn => ⟨e, he, hn⟩, fun ⟨_, _, hn⟩ => hn⟩

theorem mem_recordNodes {n : ReportNode} : n ∈ r.recordNodes ↔ n = r.rootNode ∨
    (∃ result ∈ r.results, n = .type result.target.type) ∨ n ∈ r.failedNodes ∨
    (∃ result ∈ r.results, n = .test result.target.signature ∨ n ∈ violationNodes result) ∨
    ∃ e ∈ r.errors, n = .test e.target.signature := by
  have htype : n ∈ r.types.map .type ↔ ∃ result ∈ r.results, n = .type result.target.type := by
    simp only [List.mem_map, mem_types]
    constructor
    · rintro ⟨name, ⟨result, hr, rfl⟩, rfl⟩
      exact ⟨result, hr, rfl⟩
    · rintro ⟨result, hr, rfl⟩
      exact ⟨_, ⟨result, hr, rfl⟩, rfl⟩
  simp only [recordNodes, List.cons_append, List.mem_cons, List.mem_append, htype,
    List.mem_flatMap, List.mem_map, or_assoc, eq_comm (a := n) (b := .test _)]

theorem rootNode_mem_recordNodes (r : Report) : r.rootNode ∈ r.recordNodes :=
  mem_recordNodes.2 (Or.inl rfl)

theorem failed_mem_recordNodes {e : AnalysisError} (he : e ∈ r.errors) :
    .failed ∈ r.recordNodes :=
  mem_recordNodes.2 (Or.inr (Or.inr (Or.inl (mem_failedNodes.2 ⟨e, he, rfl⟩))))

theorem error_mem_recordNodes {e : AnalysisError} (he : e ∈ r.errors) :
    .test e.target.signature ∈ r.recordNodes :=
  mem_recordNodes.2 (Or.inr (Or.inr (Or.inr (Or.inr ⟨e, he, rfl⟩))))

section Result

variable {result : TestResult} (hr : result ∈ r.results)
include hr

theorem type_mem_recordNodes : .type result.target.type ∈ r.recordNodes :=
  mem_recordNodes.2 (Or.inr (Or.inl ⟨result, hr, rfl⟩))

theorem result_mem_recordNodes : .test result.target.signature ∈ r.recordNodes :=
  mem_recordNodes.2 (Or.inr (Or.inr (Or.inr (Or.inl ⟨result, hr, Or.inl rfl⟩))))

theorem violation_mem_recordNodes {n : ReportNode} (hn : n ∈ violationNodes result) :
    n ∈ r.recordNodes :=
  mem_recordNodes.2 (Or.inr (Or.inr (Or.inr (Or.inl ⟨result, hr, Or.inr hn⟩))))

end Result

/-- Below the assembly the types stand before the failed tests. -/
theorem children_root (r : Report) :
    r.children r.rootNode = r.types.map .type ++ r.failedNodes := by
  have hresults : (r.results.flatMap (r.resultChildren · r.rootNode)).eraseDups =
      r.types.map .type := by
    rw [types, ← eraseDups_map fun _ _ => ReportNode.type.inj, List.map_map]
    simp [resultChildren, rootNode, List.map_eq_flatMap]
  have herrors : (r.errors.flatMap (r.errorChildren · r.rootNode)).eraseDups = r.failedNodes := by
    simp only [errorChildren, rootNode, if_true, failedNodes]
    split
    · rename_i hnone
      rw [List.isEmpty_iff.1 hnone]
      rfl
    · rename_i hsome
      rw [eraseDups_flatMap_const (by simpa using hsome)]
      rfl
  -- no result adds the node of the failed tests, so it stands behind the types
  have hnew : r.failedNodes.filter
      (!(r.results.flatMap (r.resultChildren · r.rootNode)).contains ·) = r.failedNodes := by
    refine List.filter_eq_self.2 fun n hn => ?_
    obtain rfl : n = .failed := by
      rw [failedNodes] at hn
      split at hn
      · cases hn
      · exact List.mem_singleton.1 hn
    simp [resultChildren, rootNode]
  rw [children, eraseDups_append_eq, hresults, herrors, hnew]

/-- Below a type stand its results. -/
theorem children_type (h : r.SignaturesDiffer) (name : String) : r.children (.type name) =
    (r.results.filter (·.target.type = name)).map fun result => .test result.target.signature := by
  have hnodup : ((r.results.filter (·.target.type = name)).map
      fun result => ReportNode.test result.target.signature).Nodup := by
    have hsignatures := (List.nodup_append.1 h).1.map fun _ _ => ReportNode.test.inj
    rw [List.map_map] at hsignatures
    exact hsignatures.sublist (List.filter_sublist.map _)
  have hresults : r.results.flatMap (r.resultChildren · (.type name)) =
      (r.results.filter (·.target.type = name)).map
        fun result => .test result.target.signature := by
    simp only [resultChildren]
    rw [flatMap_ite, List.map_eq_flatMap]
  have herrors : r.errors.flatMap (r.errorChildren · (.type name)) = [] :=
    List.flatMap_eq_nil_iff.2 fun _ _ => rfl
  rw [children, hresults, herrors, List.append_nil, eraseDups_of_nodup hnodup]

/-- Below a test stands what the results with its signature list. -/
theorem children_test (r : Report) (signature : String) : r.children (.test signature) =
    ((r.results.filter (·.target.signature = signature)).flatMap violationNodes).eraseDups := by
  have hresults : r.results.flatMap (r.resultChildren · (.test signature)) =
      (r.results.filter (·.target.signature = signature)).flatMap violationNodes := by
    simp only [resultChildren]
    rw [flatMap_ite]
  have herrors : r.errors.flatMap (r.errorChildren · (.test signature)) = [] :=
    List.flatMap_eq_nil_iff.2 fun _ _ => rfl
  rw [children, hresults, herrors, List.append_nil]

theorem children_result (h : r.SignaturesDiffer) {result : TestResult} (hr : result ∈ r.results) :
    r.children (.test result.target.signature) = violationNodes result := by
  have honly : r.results.filter (·.target.signature = result.target.signature) = [result] := by
    have hsignatures := (List.nodup_append.1 h).1
    refine eq_singleton_of_nodup (hsignatures.of_map.filter _) fun other => ?_
    rw [List.mem_filter, decide_eq_true_iff]
    constructor
    · rintro ⟨hother, hsame⟩
      exact List.inj_on_of_nodup_map hsignatures hother hr hsame
    · rintro rfl
      exact ⟨hr, rfl⟩
  rw [children_test, honly, List.flatMap_singleton,
    eraseDups_of_nodup (nodup_violationNodes result)]

theorem children_error (h : r.SignaturesDiffer) {e : AnalysisError} (he : e ∈ r.errors) :
    r.children (.test e.target.signature) = [] := by
  have hnone : r.results.filter (·.target.signature = e.target.signature) = [] := by
    refine List.filter_eq_nil_iff.2 fun result hr hsame => ?_
    exact (List.nodup_append.1 h).2.2 _ (List.mem_map_of_mem hr) _ (List.mem_map_of_mem he)
      (of_decide_eq_true hsame)
  rw [children_test, hnone]
  rfl

/-- Below the failed tests stand the errors. -/
theorem children_failed (h : r.SignaturesDiffer) :
    r.children .failed = r.errors.map fun e => .test e.target.signature := by
  have hnodup : (r.errors.map fun e => ReportNode.test e.target.signature).Nodup := by
    have hsignatures := (List.nodup_append.1 h).2.1.map fun _ _ => ReportNode.test.inj
    rwa [List.map_map] at hsignatures
  have hresults : r.results.flatMap (r.resultChildren · .failed) = [] :=
    List.flatMap_eq_nil_iff.2 fun _ _ => rfl
  have herrors : r.errors.flatMap (r.errorChildren · .failed) =
      r.errors.map fun e => .test e.target.signature := by
    rw [List.map_eq_flatMap]
    rfl
  rw [children, hresults, herrors, List.nil_append, eraseDups_of_nodup hnodup]

theorem children_violation (r : Report) (signature : String) (index : Nat) :
    r.children (.violation signature index) = [] := by
  have hresults : r.results.flatMap (r.resultChildren · (.violation signature index)) = [] :=
    List.flatMap_eq_nil_iff.2 fun _ _ => rfl
  have herrors : r.errors.flatMap (r.errorChildren · (.violation signature index)) = [] :=
    List.flatMap_eq_nil_iff.2 fun _ _ => rfl
  rw [children, hresults, herrors]
  rfl

/-- **A tree that regroups a report and loses nothing of it.** -/
structure Regroups (r : Report) (tree : Digraph ReportNode) : Prop where
  root_eq : tree.root = r.rootNode
  /-- Every record has one node. -/
  nodes_perm : tree.nodes.Perm r.recordNodes
  nodup : tree.nodes.Nodup
  /-- Kind and key tell the nodes apart. -/
  eq_of_key : ∀ n ∈ tree.nodes, ∀ m ∈ tree.nodes, n.kind = m.kind → n.key = m.key → n = m
  /-- Below the assembly are the types, and behind them the failed
  tests. -/
  heads_root : tree.heads r.rootNode = .ok (r.types.map .type ++ r.failedNodes)
  /-- Below a type are its results in the order of the report. -/
  heads_type : ∀ name ∈ r.types, tree.heads (.type name) =
    .ok ((r.results.filter (·.target.type = name)).map fun result => .test result.target.signature)
  /-- Below a result are the violations that it lists. -/
  heads_result : ∀ result ∈ r.results,
    tree.heads (.test result.target.signature) = .ok (violationNodes result)
  heads_violation : ∀ result ∈ r.results, ∀ n ∈ violationNodes result, tree.heads n = .ok []
  /-- Below the failed tests are the errors in order. -/
  heads_failed : r.errors ≠ [] →
    tree.heads .failed = .ok (r.errors.map fun e => .test e.target.signature)
  heads_error : ∀ e ∈ r.errors, tree.heads (.test e.target.signature) = .ok []
  /-- The node of a result leads back to it and to its violations. -/
  result_record : ∀ result ∈ r.results, r.result? result.target.signature = some result ∧
    r.error? result.target.signature = none ∧
    ∀ index, r.violation? result.target.signature index = result.violations[index]?
  /-- The node of an error leads back to it. -/
  error_record : ∀ e ∈ r.errors, r.error? e.target.signature = some e ∧
    r.result? e.target.signature = none

theorem leaves_ne_nil (r : Report) : r.leaves ≠ [] := by
  rw [leaves]
  split
  · exact List.cons_ne_nil _ _
  · rename_i hne
    simpa using hne

/-- The lowest nodes belong to a result or to an error, unless there is
none of either. -/
theorem mem_leaves {leaf : ReportNode} (h : leaf ∈ r.leaves) : leaf = r.rootNode ∨
    (∃ result ∈ r.results, leaf ∈ resultLeaves result) ∨
    ∃ e ∈ r.errors, leaf = .test e.target.signature := by
  rw [leaves] at h
  split at h
  · exact Or.inl (List.mem_singleton.1 h)
  · rcases List.mem_append.1 h with h | h
    · exact Or.inr (Or.inl (List.mem_flatMap.1 h))
    · obtain ⟨e, he, rfl⟩ := List.mem_map.1 h
      exact Or.inr (Or.inr ⟨e, he, rfl⟩)

theorem mem_leaves_of_result {result : TestResult} {leaf : ReportNode} (hr : result ∈ r.results)
    (h : leaf ∈ resultLeaves result) : leaf ∈ r.leaves := by
  have hmem : leaf ∈ r.results.flatMap resultLeaves ++
      r.errors.map fun e => .test e.target.signature :=
    List.mem_append_left _ (List.mem_flatMap.2 ⟨result, hr, h⟩)
  rw [leaves, if_neg (by simpa using List.ne_nil_of_mem hmem)]
  exact hmem

theorem mem_leaves_of_error {e : AnalysisError} (he : e ∈ r.errors) :
    .test e.target.signature ∈ r.leaves := by
  have hmem : .test e.target.signature ∈ r.results.flatMap resultLeaves ++
      r.errors.map fun e => .test e.target.signature :=
    List.mem_append_right _ (List.mem_map.2 ⟨e, he, rfl⟩)
  rw [leaves, if_neg (by simpa using List.ne_nil_of_mem hmem)]
  exact hmem

/-- The chains above the lowest nodes end at the assembly. -/
theorem walk_chain_of_mem_leaves {leaf : ReportNode} (h : leaf ∈ r.leaves) :
    Walk r.grouper.Parent leaf r.rootNode (r.chain leaf) := by
  refine walk_chain fun name hname => ?_
  rcases mem_leaves h with rfl | ⟨result, -, hleaf⟩ | ⟨e, -, rfl⟩
  · exact (ReportNode.assembly.inj hname).symm
  · rcases mem_resultLeaves hleaf with rfl | hleaf
    · cases hname
    · obtain ⟨index, -, rfl⟩ := List.mem_map.1 hleaf
      cases hname
  · cases hname

theorem length_chain_le (r : Report) (n : ReportNode) : (r.chain n).length ≤ maxNewNodes := by
  cases n <;> simp [chain, above?, maxNewNodes]

/-- What stands above a result is on the chains. -/
theorem mem_chains_of_result {result : TestResult} (hr : result ∈ r.results) {n : ReportNode}
    (hn : n ∈ r.chain (.test result.target.signature)) : n ∈ r.leaves.flatMap r.chain := by
  obtain ⟨leaf, hleaf⟩ := List.exists_mem_of_ne_nil _ (resultLeaves_ne_nil result)
  refine List.mem_flatMap.2 ⟨leaf, mem_leaves_of_result hr hleaf, ?_⟩
  rcases mem_resultLeaves hleaf with rfl | hleaf
  · exact hn
  · obtain ⟨index, -, rfl⟩ := List.mem_map.1 hleaf
    exact List.mem_cons_of_mem _ hn

theorem mem_chain_result (h : r.SignaturesDiffer) {result : TestResult} (hr : result ∈ r.results)
    {n : ReportNode} : n ∈ r.chain (.test result.target.signature) ↔
      n = .test result.target.signature ∨ n = .type result.target.type ∨ n = r.rootNode := by
  rw [chain, h.groupNode_result hr]
  simp

theorem mem_chain_error (h : r.SignaturesDiffer) {e : AnalysisError} (he : e ∈ r.errors)
    {n : ReportNode} : n ∈ r.chain (.test e.target.signature) ↔
      n = .test e.target.signature ∨ n = .failed ∨ n = r.rootNode := by
  rw [chain, h.groupNode_error he]
  simp

/-- **The chains of a report pass the nodes of its records**, and no
others. -/
theorem mem_chains_iff (h : r.SignaturesDiffer) {n : ReportNode} :
    n ∈ r.leaves.flatMap r.chain ↔ n ∈ r.recordNodes := by
  constructor
  · intro hn
    obtain ⟨leaf, hleaf, hn⟩ := List.mem_flatMap.1 hn
    rcases mem_leaves hleaf with rfl | ⟨result, hr, hleaf⟩ | ⟨e, he, rfl⟩
    · rw [List.mem_singleton.1 hn]
      exact rootNode_mem_recordNodes r
    · -- the chain of a violation passes the violation and then the chain of its test
      have hcases : n ∈ violationNodes result ∨ n ∈ r.chain (.test result.target.signature) := by
        rcases mem_resultLeaves hleaf with rfl | hmem
        · exact Or.inr hn
        · obtain ⟨index, -, rfl⟩ := List.mem_map.1 hmem
          rcases List.mem_cons.1 hn with rfl | hn
          · exact Or.inl hmem
          · exact Or.inr hn
      rcases hcases with hn | hn
      · exact violation_mem_recordNodes hr hn
      · rcases (mem_chain_result h hr).1 hn with rfl | rfl | rfl
        · exact result_mem_recordNodes hr
        · exact type_mem_recordNodes hr
        · exact rootNode_mem_recordNodes r
    · rcases (mem_chain_error h he).1 hn with rfl | rfl | rfl
      · exact error_mem_recordNodes he
      · exact failed_mem_recordNodes he
      · exact rootNode_mem_recordNodes r
  · rw [mem_recordNodes]
    rintro (rfl | ⟨result, hr, rfl⟩ | hn | ⟨result, hr, rfl | hn⟩ | ⟨e, he, rfl⟩)
    · obtain ⟨leaf, hleaf⟩ := List.exists_mem_of_ne_nil _ (leaves_ne_nil r)
      exact List.mem_flatMap.2 ⟨leaf, hleaf, (walk_chain_of_mem_leaves hleaf).last_mem⟩
    · exact mem_chains_of_result hr ((mem_chain_result h hr).2 (Or.inr (Or.inl rfl)))
    · obtain ⟨e, he, rfl⟩ := mem_failedNodes.1 hn
      exact List.mem_flatMap.2 ⟨_, mem_leaves_of_error he,
        (mem_chain_error h he).2 (Or.inr (Or.inl rfl))⟩
    · exact mem_chains_of_result hr List.mem_cons_self
    · refine List.mem_flatMap.2 ⟨n, mem_leaves_of_result hr (mem_resultLeaves_of_mem hn), ?_⟩
      obtain ⟨index, -, rfl⟩ := List.mem_map.1 hn
      exact List.mem_cons_self
    · exact List.mem_flatMap.2 ⟨_, mem_leaves_of_error he, List.mem_cons_self⟩

/-- The nodes of a test and its violations name its signature. -/
theorem signature_of_mem_testNodes {result : TestResult} {n : ReportNode}
    (h : n ∈ ReportNode.test result.target.signature :: violationNodes result) :
    n = .test result.target.signature ∨ ∃ index, n = .violation result.target.signature index := by
  rcases List.mem_cons.1 h with hn | hn
  · exact Or.inl hn
  · obtain ⟨index, -, rfl⟩ := List.mem_map.1 hn
    exact Or.inr ⟨index, rfl⟩

/-- No two records have the same node. -/
theorem nodup_recordNodes (h : r.SignaturesDiffer) : r.recordNodes.Nodup := by
  obtain ⟨hresults, herrors, hdiffer⟩ := List.nodup_append.1 h
  have hgroups : (r.rootNode :: r.types.map ReportNode.type ++ r.failedNodes).Nodup := by
    have htypes : (r.types.map ReportNode.type).Nodup :=
      (nodup_eraseDups _).map fun _ _ => ReportNode.type.inj
    rw [failedNodes]
    split <;> simp [htypes, List.nodup_append, rootNode]
  have htests : (r.results.flatMap fun result =>
      ReportNode.test result.target.signature :: violationNodes result).Nodup := by
    have hone : ∀ result : TestResult,
        (ReportNode.test result.target.signature :: violationNodes result).Nodup :=
      fun result => List.nodup_cons.2 ⟨by simp [violationNodes], nodup_violationNodes result⟩
    refine List.nodup_flatMap.2 ⟨fun result _ => hone result, ?_⟩
    refine (List.pairwise_map.1 hresults).imp fun hne n hn hn' => hne ?_
    rcases signature_of_mem_testNodes hn with rfl | ⟨index, rfl⟩ <;>
      simpa using signature_of_mem_testNodes hn'
  have herrorNodes : (r.errors.map fun e => ReportNode.test e.target.signature).Nodup := by
    have hnodes := herrors.map fun _ _ => ReportNode.test.inj
    rwa [List.map_map] at hnodes
  have hgroup : ∀ n ∈ r.rootNode :: r.types.map ReportNode.type ++ r.failedNodes,
      ∀ signature, n ≠ .test signature ∧ ∀ index, n ≠ .violation signature index := by
    intro n hn signature
    rcases List.mem_append.1 hn with hn | hn
    · rcases List.mem_cons.1 hn with rfl | hn
      · simp [rootNode]
      · obtain ⟨name, -, rfl⟩ := List.mem_map.1 hn
        simp
    · obtain ⟨-, -, rfl⟩ := mem_failedNodes.1 hn
      simp
  -- groups differ from tests in kind, and tests from each other in their signatures
  refine List.nodup_append.2 ⟨List.nodup_append.2 ⟨hgroups, htests, ?_⟩, herrorNodes, ?_⟩
  · rintro n hn m hm rfl
    obtain ⟨result, -, hm⟩ := List.mem_flatMap.1 hm
    rcases signature_of_mem_testNodes hm with rfl | ⟨index, rfl⟩
    · exact (hgroup _ hn _).1 rfl
    · exact (hgroup _ hn _).2 index rfl
  · rintro n hn m hm rfl
    obtain ⟨e, he, rfl⟩ := List.mem_map.1 hm
    rcases List.mem_append.1 hn with hn | hn
    · exact (hgroup _ hn _).1 rfl
    · obtain ⟨result, hr, hn⟩ := List.mem_flatMap.1 hn
      rcases signature_of_mem_testNodes hn with hsame | ⟨index, hsame⟩
      · exact hdiffer _ (List.mem_map_of_mem hr) _ (List.mem_map_of_mem he)
          (ReportNode.test.inj hsame).symm
      · cases hsame

/-- **The tree of a report regroups it**, if no two of its tests have the
same signature. -/
theorem exists_regroups (h : r.SignaturesDiffer) : ∃ tree, r.tree = .ok tree ∧ r.Regroups tree := by
  have hroot : r.grouper.parent? r.rootNode = none := parent?_grouper r.rootNode
  obtain ⟨tree, htree, hrootEq, hnodup, hmem, hheads⟩ :=
    Grouper.exists_build_of_chains (leaves_ne_nil r) hroot fun leaf hleaf =>
      ⟨walk_chain_of_mem_leaves hleaf, length_chain_le r leaf⟩
  simp only [parent?_grouper, eraseDups_filter_chains h] at hheads
  have hperm : tree.nodes.Perm r.recordNodes :=
    (List.perm_ext_iff_of_nodup hnodup (nodup_recordNodes h)).2 fun n =>
      (hmem n).trans (mem_chains_iff h)
  have hchildren : ∀ n ∈ r.recordNodes, tree.heads n = .ok (r.children n) := fun n hn =>
    hheads n (hperm.mem_iff.2 hn)
  refine ⟨tree, htree, ?_⟩
  exact
    { root_eq := hrootEq
      nodes_perm := hperm
      nodup := hnodup
      eq_of_key := fun n _ m _ => ReportNode.eq_of_key_eq
      heads_root := by rw [hchildren _ (rootNode_mem_recordNodes r), children_root]
      heads_type := fun name hname => by
        obtain ⟨result, hr, rfl⟩ := mem_types.1 hname
        rw [hchildren _ (type_mem_recordNodes hr), children_type h]
      heads_result := fun result hr => by
        rw [hchildren _ (result_mem_recordNodes hr), children_result h hr]
      heads_violation := fun result hr n hn => by
        rw [hchildren n (violation_mem_recordNodes hr hn)]
        obtain ⟨index, -, rfl⟩ := List.mem_map.1 hn
        rw [children_violation]
      heads_failed := fun hne => by
        obtain ⟨e, he⟩ := List.exists_mem_of_ne_nil _ hne
        rw [hchildren _ (failed_mem_recordNodes he), children_failed h]
      heads_error := fun e he => by
        rw [hchildren _ (error_mem_recordNodes he), children_error h he]
      result_record := fun result hr => ⟨h.result?_eq hr, h.error?_eq_none hr, h.violation?_eq hr⟩
      error_record := fun e he => ⟨h.error?_eq he, h.result?_eq_none he⟩ }

/-! ## Reports on assemblies -/

/-- **The tests of a report on an assembly have different signatures**, as
a document that gives an assembly has no signature twice. -/
theorem signaturesDiffer_of_analyze {d : ListingDocument} {a : Assembly} {o : Options}
    (hload : Assembly.ofDocument d = .ok a) (h : a.analyze o = .ok r) : r.SignaturesDiffer := by
  obtain ⟨analyzed, failed, haccounts⟩ := exists_accounts h
  let signatureAt : Fin (a.selectedTests o).length → String :=
    fun i => ((a.selectedTests o).get i).signature.text
  have hresults : analyzed.map signatureAt = r.results.map (·.target.signature) :=
    map_eq_of_forall₂ haccounts.results fun i result hi => by rw [hi.1]; rfl
  have herrors : failed.map signatureAt = r.errors.map (·.target.signature) :=
    map_eq_of_forall₂ haccounts.errors fun i e hi => by rw [hi.1]; rfl
  have htests : ((List.finRange _).map signatureAt).Nodup := by
    have hnodup := (Assembly.nodup_of_ofDocument hload).sublist ((a.selectedTests_sublist o).map _)
    rw [← List.map_get_finRange (a.selectedTests o), List.map_map] at hnodup
    exact hnodup
  rw [SignaturesDiffer, ← hresults, ← herrors, ← List.map_append]
  exact (haccounts.perm.map signatureAt).nodup_iff.2 htests

/-- **The tree of a report on an assembly regroups it**, with or without a
cap on violations: it has one node for each record, groups the
results by type and the errors under one node, keeps the order of the
report, and leads back to every record. -/
theorem tree_regroups_of_analyze {d : ListingDocument} {a : Assembly} {o : Options}
    (hload : Assembly.ofDocument d = .ok a) (h : a.analyze o = .ok r) :
    ∃ tree, r.tree = .ok tree ∧ r.Regroups tree :=
  exists_regroups (signaturesDiffer_of_analyze hload h)

/-- A test that asserts nothing and one that has no body. -/
def mixedListing : ListingDocument :=
  Assembly.testDocument 0 [("void T::M()", "ret"), ("void T::N()", "")]

/-- The first test is listed below its type with its violation, the second
one below the failed tests. -/
theorem tree_regroups_of_analyze_mixedListing :
    ∃ a r tree result e, Assembly.ofDocument mixedListing = .ok a ∧ a.analyze {} = .ok r ∧
      result ∈ r.results ∧ result.violations.length = 1 ∧ e ∈ r.errors ∧
      r.tree = .ok tree ∧ r.Regroups tree := by
  have hany : ((Assembly.ofDocument mixedListing).toOption.any fun a =>
      ((a.selectedTests {}).any fun m => ControlFlow.follows m [[]] &&
        ((TestCase.mk a .builtin ⟨m, 0, [(0, [])]⟩).findings Checks.standard).toOption
          == some [⟨.noAssertion, 0⟩]) &&
      (a.selectedTests {}).any fun m => m.body.isEmpty && !(a.analyzeTest {} m).isOk) = true := by
    decide +kernel
  simp only [Option.any_eq_true, List.any_eq_true, Bool.and_eq_true, beq_iff_eq,
    toOption_eq_some] at hany
  obtain ⟨a, hload, ⟨m, hm, hfollows, hfindings⟩, m', hm', -, hfails⟩ := hany
  have hflow := ControlFlow.ofMethod_of_follows [(0, [])] hfollows
    (by simp [explore, Adjacency.has, Adjacency.fresh])
  obtain ⟨r, hr⟩ := Assembly.exists_report (a := a) (o := {}) rfl (absurd rfl)
  obtain ⟨result, hresult, hviolations⟩ := exists_result_of_findings hr hm
    (map_eq_ok.2 ⟨_, hflow, rfl⟩) hfindings (Int.le_refl 0)
  obtain ⟨tree, htree, hregroups⟩ := tree_regroups_of_analyze hload hr
  cases htest : a.analyzeTest {} m' with
  | ok _ => simp [htest, Except.isOk, Except.toBool] at hfails
  | error e =>
    exact ⟨a, r, tree, result, e, hload, hr, hresult, by rw [hviolations]; rfl,
      mem_errors_of_analyzeTest hr hm' htest, htree, hregroups⟩

end Report

end SmellCheck
