import SmellCheck.Assembly.Load
import SmellCheck.Proofs.Bytecode.Transcript
/-!
# What loading gives

The methods of a loaded assembly come from the entries of its document,
and the body of each was read from the listing of its entry. So every
instruction of a loaded method is in order.
-/

namespace SmellCheck

/-- The body of a method is what its entry lists. -/
theorem MethodEntry.read_of_toMethod {e : MethodEntry} {m : Method} (h : e.toMethod = .ok m) :
    Body.read e.body = .ok m.body := by
  rw [toMethod] at h
  obtain ⟨signature, -, h⟩ := bind_eq_ok.1 h
  by_cases hlocals : e.locals < 0
  · rw [if_pos hlocals] at h
    cases h
  rw [if_neg hlocals] at h
  obtain ⟨body, hbody, h⟩ := bind_eq_ok.1 h
  cases h
  exact mapError_eq_ok.1 hbody

namespace Assembly

/-- A method that is added comes from an entry. -/
theorem exists_entry_of_addMethods {entries : List MethodEntry} {found all : List Method}
    {index : Nat} (h : addMethods found index entries = .ok all) {m : Method} (hm : m ∈ all) :
    m ∈ found ∨ ∃ e ∈ entries, e.toMethod = .ok m := by
  induction entries generalizing found index with
  | nil => cases h; exact Or.inl hm
  | cons e entries ih =>
    rw [addMethods] at h
    split at h
    · cases h
    · rename_i added hadded
      split at h
      · cases h
      · rcases ih h with hm | ⟨e', he', hm⟩
        · rcases List.mem_append.1 hm with hm | hm
          · exact Or.inl hm
          · rw [List.mem_singleton.1 hm]
            exact Or.inr ⟨e, List.mem_cons_self, hadded⟩
        · exact Or.inr ⟨e', List.mem_cons_of_mem e he', hm⟩

/-- A method of a document comes from one of its entries. -/
theorem exists_entry_of_ofDocument {d : ListingDocument} {a : Assembly}
    (h : ofDocument d = .ok a) {m : Method} (hm : m ∈ a.methods) :
    ∃ e ∈ d.methods, e.toMethod = .ok m := by
  rw [ofDocument] at h
  split at h
  · cases h
  · obtain ⟨methods, hmethods, rfl⟩ := map_eq_ok.1 h
    rcases exists_entry_of_addMethods hmethods hm with hm | hm
    · exact absurd hm List.not_mem_nil
    · exact hm

/-- The body of a method of a document was read from a listing. -/
theorem exists_read_of_ofDocument {d : ListingDocument} {a : Assembly} (h : ofDocument d = .ok a)
    {m : Method} (hm : m ∈ a.methods) : ∃ listing, Body.read listing = .ok m.body := by
  obtain ⟨e, -, he⟩ := exists_entry_of_ofDocument h hm
  exact ⟨e.body, MethodEntry.read_of_toMethod he⟩

/-- **The methods of a document are in order.** -/
theorem wellFormed_of_ofDocument {d : ListingDocument} {a : Assembly} (h : ofDocument d = .ok a)
    {m : Method} (hm : m ∈ a.methods) : m.body.WellFormed := by
  obtain ⟨listing, hread⟩ := exists_read_of_ofDocument h hm
  exact Body.wellFormed_of_read hread

/-- A document of tests with the given signatures and listings, and with
so many local slots each. -/
def testDocument (locals : Int) (tests : List (String × String)) : ListingDocument where
  assembly := "A"
  methods := tests.map fun (signature, body) =>
    { signature, type := "", name := "", static := false, returns := "", params := []
      attributes := ["Xunit.Fact"], locals, body }

/-- A test that runs on the methods of a document finds one of them. -/
theorem exists_method_of_any (d : ListingDocument) (test : Method → Bool)
    (h : ((ofDocument d).toOption.any fun a => a.methods.any test) = true) :
    ∃ a m, ofDocument d = .ok a ∧ m ∈ a.methods ∧ test m = true := by
  obtain ⟨a, ha, h⟩ := (Option.any_eq_true _ _).1 h
  obtain ⟨m, hm, htest⟩ := List.any_eq_true.1 h
  exact ⟨a, m, toOption_eq_some.1 ha, hm, htest⟩

end Assembly

end SmellCheck
