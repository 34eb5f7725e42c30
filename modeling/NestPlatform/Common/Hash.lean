-- SUMMARY: `HashUtil.stableHash` and when the texts that it hashes tell two queries apart.
import NestPlatform.Js.PropertyList

/-!
# `HashUtil`

The hash of a query is taken of its JSON text with the query's own keys, sorted, as the
property list. The list is meant to put the keys in order, and it also selects the properties of
every nested object.
-/
namespace Common

open Js

namespace HashUtil

variable (N : Spelling) (sha256 : String → String)

/-- The text that is hashed; `none` is the `TypeError` of `Object.keys`. -/
def json (value : Value) : Option String :=
  if value.nullish then none else some (stringify N (pick (sort (Entries.keys value.entries)) value))

/-- `stableHash(value)`, where `sha256` answers the digest in hexadecimal. -/
def stableHash (value : Value) : Option String :=
  (json N value).map fun text => String.ofList ((sha256 text).toList.take 16)

/-! ## Texts -/

variable {N} {es fs : Entries}

theorem json_obj : json N (.obj es) = some (stringify N (pick (sort (Entries.keys es)) (.obj es))) := rfl

/-- The keys of a query are all printed. -/
theorem keys_of_pick (hes : IsJson N (.obj es)) (hfs : IsJson N (.obj fs))
    (h : pick (sort (Entries.keys es)) (.obj es) = pick (sort (Entries.keys fs)) (.obj fs)) :
    (Entries.keys es).Perm (Entries.keys fs) := by
  have hkeys : ∀ {es : Entries}, IsJson N (.obj es) → Entries.keys
      (listed (sort (Entries.keys es)) (property (pickEntries (sort (Entries.keys es)) es))) =
      sort (Entries.keys es) := by
    intro es hes
    simp only [IsJson] at hes
    apply keys_listed
    intro k hk
    have hown : k ∈ Entries.keys es := mem_sort.mp hk
    rw [property_pickEntries (nodup_sort hes.1) hk, property, if_neg fun h => h.2 hown]
    intro hundefined
    exact (mem_keys_iff hes.2 k).mp hown (eq_of_pick_eq hundefined nofun nofun)
  simp only [pick, Value.obj.injEq] at h
  rw [← sort_eq_sort, ← hkeys hes, ← hkeys hfs, h]

/-- Two queries have one text if they have the same keys and are equal on them, up to the order of
keys. -/
theorem json_eq_iff (hes : IsJson N (.obj es)) (hfs : IsJson N (.obj fs)) :
    json N (.obj es) = json N (.obj fs) ↔
      (Entries.keys es).Perm (Entries.keys fs) ∧ EqualOn (Entries.keys es) (.obj es) (.obj fs) := by
  have hnodup : ∀ {es : Entries}, IsJson N (.obj es) → (sort (Entries.keys es)).Nodup := fun {es} h => by
    simp only [IsJson] at h
    exact nodup_sort h.1
  have hseen : seen (sort (Entries.keys es)) = seen (Entries.keys es) := by
    funext o k
    simp only [seen, mem_sort]
  rw [json_obj, json_obj, Option.some.injEq,
    stringify_inj (isJson_pick (hnodup hes) _ hes) (isJson_pick (hnodup hfs) _ hfs)]
  constructor
  · intro h
    have hperm := keys_of_pick hes hfs h
    rw [← sort_eq_sort.mpr hperm, pick_eq_pick (hnodup hes), EqualOn, hseen] at h
    exact ⟨hperm, h⟩
  · rintro ⟨hperm, h⟩
    rw [← sort_eq_sort.mpr hperm, pick_eq_pick (hnodup hes), EqualOn, hseen]
    exact h

/-- Queries that are equal on their keys share a hash, whatever the digest. -/
theorem stableHash_eq (hes : IsJson N (.obj es)) (hfs : IsJson N (.obj fs))
    (hperm : (Entries.keys es).Perm (Entries.keys fs))
    (hsame : EqualOn (Entries.keys es) (.obj es) (.obj fs)) :
    stableHash N sha256 (.obj es) = stableHash N sha256 (.obj fs) := by
  rw [stableHash, stableHash, (json_eq_iff hes hfs).mpr ⟨hperm, hsame⟩]

/-! ## Distinct queries -/

/-- The text tells two queries apart, and no more than that, exactly if they do not differ in the nested
properties alone whose names are no keys of the queries. -/
theorem json_distinguishes_iff (hes : IsJson N (.obj es)) (hfs : IsJson N (.obj fs)) :
    (json N (.obj es) = json N (.obj fs) ↔ Reordered (.obj es) (.obj fs)) ↔
      ((Entries.keys es).Perm (Entries.keys fs) → EqualOn (Entries.keys es) (.obj es) (.obj fs) →
        Reordered (.obj es) (.obj fs)) := by
  rw [json_eq_iff hes hfs]
  constructor
  · intro h hperm hsame
    exact h.mp ⟨hperm, hsame⟩
  · intro h
    refine ⟨fun hsame => h hsame.1 hsame.2, fun hsame => ?_⟩
    exact ⟨hsame.keys_perm hes hfs, hsame.equalOn (.inr hes) (.inr hfs)⟩

/-- The spelling of the examples. -/
def wholeNumbers : Spelling := .integers fun ms => ms.repr

def firstPage : Entries := [("page", .nat 1), ("limit", .nat 20)]

theorem isJson_nat (n : ℕ) : IsJson wholeNumbers (.nat n) := by
  simp [Value.nat, Number.natCast_def, IsJson, wholeNumbers, Spelling.integers]

theorem isJson_firstPage : IsJson wholeNumbers (.obj firstPage) := by
  simp [IsJson, EntriesJson, firstPage, Entries.keys, isJson_nat]

theorem json_distinguishes_iff_page : json wholeNumbers (.obj firstPage) =
      json wholeNumbers (.obj [("limit", .nat 20), ("page", .nat 1)]) ↔
    Reordered (.obj firstPage) (.obj [("limit", .nat 20), ("page", .nat 1)]) :=
  (json_distinguishes_iff isJson_firstPage
    (by simp [IsJson, EntriesJson, Entries.keys, isJson_nat])).mpr fun _ _ =>
      reordered_of_perm (List.Perm.swap _ _ _) (by decide)

/-- The users of one role, by a nested property. -/
def byRole (role : String) : Entries := [("filter", .obj [("role", .str role)])]

/-- Whatever role is asked for, the text is the same. -/
theorem json_byRole : IsJson wholeNumbers (.obj (byRole "admin")) ∧
    IsJson wholeNumbers (.obj (byRole "user")) ∧
    ¬ (json wholeNumbers (.obj (byRole "admin")) = json wholeNumbers (.obj (byRole "user")) ↔
      Reordered (.obj (byRole "admin")) (.obj (byRole "user"))) := by
  have hjson : ∀ role, IsJson wholeNumbers (.obj (byRole role)) := fun role => by
    simp [IsJson, EntriesJson, byRole, Entries.keys]
  refine ⟨hjson _, hjson _, fun h => ?_⟩
  have hsame : json wholeNumbers (.obj (byRole "admin")) = json wholeNumbers (.obj (byRole "user")) := by
    have hkeys : ∀ role, sort (Entries.keys (byRole role)) = ["filter"] := fun role =>
      List.mergeSort_singleton "filter"
    rw [json_obj, json_obj, hkeys, hkeys]
    rfl
  have hrole := ((h.mp hsame).look_obj "filter").look_obj "role"
  exact absurd (hrole.eq_of_flat (by simp [Entries.get]) (by simp [Entries.get])) (by simp [Entries.get])

end HashUtil
end Common
