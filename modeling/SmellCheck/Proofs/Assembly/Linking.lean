import SmellCheck.Proofs.Assembly.Load
import SmellCheck.Proofs.Bytecode.Signature
import Mathlib.Data.List.Nodup
/-!
# Linking calls to methods

A call is linked to the method whose signature is written alike. In a
loaded assembly no two methods are, so at most one method comes into
question, and as written forms tell signatures apart it is the method
that agrees with the call in everything that a signature says.
-/

namespace SmellCheck

namespace Assembly

/-- Methods are added only under a written form of their own. -/
theorem nodup_of_addMethods {entries : List MethodEntry} {found all : List Method} {index : Nat}
    (h : addMethods found index entries = .ok all)
    (hfound : (found.map (·.signature.text)).Nodup) : (all.map (·.signature.text)).Nodup := by
  induction entries generalizing found index with
  | nil => cases h; exact hfound
  | cons e entries ih =>
    rw [addMethods] at h
    split at h
    · cases h
    · rename_i m hm
      split at h
      · cases h
      · rename_i hnew
        refine ih h ?_
        rw [List.map_append, List.map_singleton]
        refine List.nodup_append.2 ⟨hfound, List.nodup_singleton _, ?_⟩
        intro t ht u hu htu
        obtain ⟨m', hm', rfl⟩ := List.mem_map.1 ht
        refine hnew (List.any_eq_true.2 ⟨m', hm', ?_⟩)
        rw [beq_iff_eq, htu, List.mem_singleton.1 hu]

/-- **The methods of a document are written differently.** -/
theorem nodup_of_ofDocument {d : ListingDocument} {a : Assembly} (h : ofDocument d = .ok a) :
    (a.methods.map (·.signature.text)).Nodup := by
  rw [ofDocument] at h
  split at h
  · cases h
  · obtain ⟨methods, hmethods, rfl⟩ := map_eq_ok.1 h
    exact nodup_of_addMethods hmethods List.nodup_nil

/-- A call is linked to the one method that is written like it. -/
theorem resolve?_eq_some_iff {a : Assembly} (ha : (a.methods.map (·.signature.text)).Nodup)
    {call : Signature} {m : Method} (hm : m ∈ a.methods) :
    a.resolve? call = some m ↔ m.signature.text = call.text := by
  constructor
  · intro h
    simpa using List.find?_some h
  · intro htext
    cases hfound : a.resolve? call with
    | none =>
      have hnone := List.find?_eq_none.1 hfound m hm
      rw [htext] at hnone
      exact absurd (beq_self_eq_true call.text) hnone
    | some m' =>
      have htext' : m'.signature.text = call.text := by simpa using List.find?_some hfound
      rw [List.inj_on_of_nodup_map ha (List.mem_of_find?_eq_some hfound) hm
        (htext'.trans htext.symm)]

end Assembly

namespace Signature

/-- Parameters are equal if they agree in type and kind. -/
theorem params_eq_iff {ps qs : List Param} :
    ps = qs ↔ ps.map (·.type) = qs.map (·.type) ∧ ps.map (·.kind) = qs.map (·.kind) := by
  constructor
  · rintro rfl
    exact ⟨rfl, rfl⟩
  · rintro ⟨htype, hkind⟩
    induction ps generalizing qs with
    | nil => exact (List.map_eq_nil_iff.1 htype.symm).symm
    | cons p ps ih =>
      cases qs with
      | nil => cases htype
      | cons q qs =>
        obtain ⟨htype, htypes⟩ := List.cons.inj htype
        obtain ⟨hkind, hkinds⟩ := List.cons.inj hkind
        have hpq : p = q := by
          cases p
          cases q
          exact congr (congrArg Param.mk htype) hkind
        rw [hpq, ih htypes hkinds]

/-- **Written forms identify methods.** A signature whose parts can be
told apart is read back from its written form; two of these are written
alike only if they are equal; and in the assembly of a document a call is
linked to a method exactly if both agree in declaring type, name,
receiver, return type and the types and kinds of all parameters. -/
theorem text_identifies_method :
    (∀ m : Signature, m.WellFormed → read m.text = .ok m) ∧
    (∀ m m' : Signature, m.WellFormed → m'.WellFormed → (m.text = m'.text ↔ m = m')) ∧
    ∀ (d : ListingDocument) (a : Assembly), Assembly.ofDocument d = .ok a →
      ∀ (call : Signature) (m : Method), call.WellFormed → m.signature.WellFormed →
        m ∈ a.methods →
        (a.resolve? call = some m ↔
          call.owner = m.signature.owner ∧ call.name = m.signature.name ∧
          call.hasThis = m.signature.hasThis ∧ call.returns = m.signature.returns ∧
          call.params.map (·.type) = m.signature.params.map (·.type) ∧
          call.params.map (·.kind) = m.signature.params.map (·.kind)) := by
  have htext : ∀ m m' : Signature, m.WellFormed → m'.WellFormed → (m.text = m'.text ↔ m = m') :=
    fun m m' h h' => ⟨eq_of_text_eq h h', fun heq => heq ▸ rfl⟩
  refine ⟨fun m h => h.read_text, htext, fun d a hload call m hcall hm hmem => ?_⟩
  rw [Assembly.resolve?_eq_some_iff (Assembly.nodup_of_ofDocument hload) hmem, htext _ _ hm hcall,
    eq_comm, ← params_eq_iff]
  cases call
  cases m.signature
  simp only [mk.injEq]

/-- Calls with a receiver, a return type of two words, nested brackets
and the three kinds of parameters. -/
def genericCall : Signature where
  owner := "T"
  name := "M"
  hasThis := true
  returns := "class X"
  params := [⟨"D<K,V[]>", .byValue⟩, ⟨"", .byRef⟩, ⟨"A&", .out⟩]

/-- A method with this signature. -/
def genericListing : ListingDocument :=
  Assembly.testDocument 0 [("instance class X T::M(D<K,V[]>, &, out A&&)", "")]

theorem text_identifies_method_genericListing :
    genericCall.WellFormed ∧ read genericCall.text = .ok genericCall ∧
      ∃ a m, Assembly.ofDocument genericListing = .ok a ∧ m ∈ a.methods ∧
        a.resolve? genericCall = some m := by
  have hcall : genericCall.WellFormed := {
    returns_words := ⟨["class".toList, "X".toList], by decide, by decide, by decide, by decide⟩
    owner_word := by decide
    no_colons := by decide
    no_colon_end := by decide
    name_ne := by decide
    name_trimmed := by decide
    name_no_paren := by decide
    params := by decide }
  obtain ⟨hread, -, hresolve⟩ := text_identifies_method
  obtain ⟨a, m, hload, hmem, htest⟩ := Assembly.exists_method_of_any genericListing
    (·.signature == genericCall) (by decide +kernel)
  have hsignature : m.signature = genericCall := by simpa using htest
  refine ⟨hcall, hread _ hcall, a, m, hload, hmem, ?_⟩
  rw [hresolve _ a hload genericCall m hcall (hsignature ▸ hcall) hmem, hsignature]
  simp

end Signature

end SmellCheck
