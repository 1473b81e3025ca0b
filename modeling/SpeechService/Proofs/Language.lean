import SpeechService.Language

/-!
Tables as maps from tags to names. `names` lists every name that a tag leads to, once and in
ascending order.
-/

set_option autoImplicit false

namespace SpeechService

theorem lookup_eq_some_iff_mem {α : Type} {entries : List (String × α)} {key : String} {value : α}
    (distinct : (entries.map Prod.fst).Nodup) :
    entries.lookup key = some value ↔ (key, value) ∈ entries := by
  induction entries with
  | nil => simp
  | cons entry entries ih =>
    obtain ⟨name, content⟩ := entry
    obtain ⟨fresh, others⟩ := List.nodup_cons.1 distinct
    by_cases same : key = name
    · subst same
      have absent : (key, value) ∉ entries := fun mem =>
        fresh (List.mem_map.2 ⟨(key, value), mem, rfl⟩)
      simp [absent, eq_comm]
    · have other : (key == name) = false := beq_eq_false_iff_ne.2 same
      simp [List.lookup_cons, other, same, ih others]

namespace TagTable

theorem find?_eq_some_iff {table : TagTable} {tag name : String} :
    table.find? tag = some name ↔ (tag, name) ∈ table.entries :=
  lookup_eq_some_iff_mem table.distinct

end TagTable

end SpeechService
