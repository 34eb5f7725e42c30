-- SUMMARY: Object ids, documents and collections with pairwise distinct ids.
import Mathlib.Data.List.Nodup
import NestPlatform.Js.Value

/-!
# Collections

A document is an object id and its other fields; a missing field is `undefined`.
A collection lists its documents in natural order, and no two have the same id.
-/
namespace Mongo

open Js

/-! ## Object ids -/

def isHexDigit (c : Char) : Bool := ('0' ≤ c ∧ c ≤ '9') ∨ ('a' ≤ c ∧ c ≤ 'f')

/-- An object id in its string form of 24 hexadecimal digits. -/
def ObjectId : Type := { hex : String // hex.toList.length = 24 ∧ hex.toList.all isHexDigit }

namespace ObjectId

instance : DecidableEq ObjectId := inferInstanceAs (DecidableEq { _hex : String // _ })

/-- `id.toString()`. -/
def toString (id : ObjectId) : String := id.val

theorem toString_inj {id id' : ObjectId} : id.toString = id'.toString ↔ id = id' := Subtype.val_inj

end ObjectId

/-! ## Documents -/

abbrev Fields := String → Value

/-- `fields` with each of `sets` assigned. -/
def Fields.assign (fields : Fields) (sets : Entries) : Fields :=
  sets.foldl (fun fs e => Function.update fs e.1 e.2) fields

structure Doc where
  id : ObjectId
  fields : Fields

theorem Fields.assign_of_notMem {fields : Fields} {sets : Entries} {k : String}
    (h : k ∉ Entries.keys sets) : Fields.assign fields sets k = fields k := by
  induction sets generalizing fields with
  | nil => rfl
  | cons e sets ih =>
    simp only [Entries.keys, List.map_cons, List.mem_cons, not_or] at h
    exact (ih h.2).trans (Function.update_of_ne h.1 _ _)

/-- A field keeps its value or takes one that it is assigned. -/
theorem Fields.assign_cases (fields : Fields) (sets : Entries) (k : String) :
    Fields.assign fields sets k = fields k ∨ (k, Fields.assign fields sets k) ∈ sets := by
  induction sets generalizing fields with
  | nil => exact .inl rfl
  | cons e sets ih =>
    cases ih (Function.update fields e.1 e.2) with
    | inr hlater => exact .inr (List.mem_cons_of_mem _ hlater)
    | inl hkeep =>
      by_cases hk : k = e.1
      · subst hk
        rw [Function.update_self] at hkeep
        exact .inr (List.mem_cons.mpr (.inl (Prod.ext rfl hkeep)))
      · rw [Function.update_of_ne hk] at hkeep
        exact .inl hkeep

/-- What an assigned field becomes does not depend on what was there. -/
theorem Fields.assign_congr (x y : Fields) {sets : Entries} {k : String}
    (h : k ∈ Entries.keys sets) : Fields.assign x sets k = Fields.assign y sets k := by
  induction sets generalizing x y with
  | nil => cases h
  | cons e sets ih =>
    by_cases hlater : k ∈ Entries.keys sets
    · exact ih _ _ hlater
    · obtain rfl : k = e.1 := (List.mem_cons.mp h).resolve_right hlater
      have hself : ∀ z : Fields, Fields.assign z (e :: sets) e.1 = e.2 := fun z =>
        (Fields.assign_of_notMem hlater).trans (Function.update_self ..)
      rw [hself, hself]

/-- A field that is assigned one value takes it. -/
theorem Fields.assign_of_unique {fields : Fields} {sets : Entries} {k : String} {w : Value}
    (hmem : (k, w) ∈ sets) (hunique : ∀ w', (k, w') ∈ sets → w' = w) :
    Fields.assign fields sets k = w := by
  induction sets generalizing fields with
  | nil => cases hmem
  | cons e sets ih =>
    by_cases hlater : (k, w) ∈ sets
    · exact ih hlater fun w' hw' => hunique w' (List.mem_cons_of_mem _ hw')
    · obtain rfl : (k, w) = e := (List.mem_cons.mp hmem).resolve_right hlater
      have hlast : k ∉ Entries.keys sets := by
        intro hk
        obtain ⟨⟨_, w'⟩, hw', rfl⟩ := List.mem_map.mp hk
        obtain rfl := hunique w' (List.mem_cons_of_mem _ hw')
        exact hlater hw'
      exact (Fields.assign_of_notMem hlast).trans (Function.update_self ..)

/-! ## Collections -/

structure Collection where
  docs : List Doc
  nodup : (docs.map Doc.id).Nodup

namespace Collection

def empty : Collection := ⟨[], List.nodup_nil⟩

/-- The document with the given id. -/
def get (c : Collection) (id : ObjectId) : Option Doc := c.docs.find? (·.id = id)

/-- `c` with `d` in the place of the document that has its id. -/
def put (c : Collection) (d : Doc) : Collection where
  docs := c.docs.map fun e => if e.id = d.id then d else e
  nodup := by
    have hid : (c.docs.map fun e => if e.id = d.id then d else e).map Doc.id = c.docs.map Doc.id := by
      rw [List.map_map]
      refine List.map_congr_left fun e _ => ?_
      by_cases h : e.id = d.id <;> simp [h]
    rw [hid]
    exact c.nodup

/-- `c` with a document of a new id at the end. -/
def insert (c : Collection) (d : Doc) (h : c.get d.id = none) : Collection where
  docs := c.docs ++ [d]
  nodup := by
    rw [List.map_append, List.nodup_append]
    refine ⟨c.nodup, by simp, ?_⟩
    intro a ha b hb
    obtain ⟨e, he, rfl⟩ := List.mem_map.mp ha
    obtain rfl : b = d.id := by simpa using hb
    simpa using List.find?_eq_none.mp h e he

/-- `c` without the document that has the given id. -/
def erase (c : Collection) (id : ObjectId) : Collection where
  docs := c.docs.filter (·.id ≠ id)
  nodup := c.nodup.sublist ((List.filter_sublist).map Doc.id)

variable {c : Collection} {d d' : Doc} {id id' : ObjectId}

theorem get_eq_some : c.get id = some d ↔ d ∈ c.docs ∧ d.id = id := by
  constructor
  · intro h
    exact ⟨List.mem_of_find?_eq_some h, by simpa using List.find?_some h⟩
  · rintro ⟨hd, rfl⟩
    cases h : c.get d.id with
    | none =>
      have hne := List.find?_eq_none.mp h d hd
      simp at hne
    | some e =>
      have he : e ∈ c.docs := List.mem_of_find?_eq_some h
      have hid : e.id = d.id := by simpa using List.find?_some h
      rw [List.inj_on_of_nodup_map c.nodup he hd hid]

theorem id_of_get (h : c.get id = some d) : d.id = id := (get_eq_some.mp h).2

theorem mem_of_get (h : c.get id = some d) : d ∈ c.docs := (get_eq_some.mp h).1

theorem get_of_mem (h : d ∈ c.docs) : c.get d.id = some d := get_eq_some.mpr ⟨h, rfl⟩

theorem ne_of_get (h : c.get id = none) (hd : d ∈ c.docs) : d.id ≠ id := by
  rintro rfl
  rw [get_of_mem hd] at h
  cases h

theorem eq_of_id (hd : d ∈ c.docs) (hd' : d' ∈ c.docs) (h : d.id = d'.id) : d = d' :=
  List.inj_on_of_nodup_map c.nodup hd hd' h

theorem mem_put : d' ∈ (c.put d).docs ↔
    (d' ∈ c.docs ∧ d'.id ≠ d.id) ∨ (d' = d ∧ ∃ e ∈ c.docs, e.id = d.id) := by
  simp only [put, List.mem_map]
  constructor
  · rintro ⟨e, he, rfl⟩
    by_cases h : e.id = d.id
    · exact .inr ⟨by simp [h], e, he, h⟩
    · exact .inl ⟨by simpa [h] using he, by simp [h]⟩
  · rintro (⟨hd', hne⟩ | ⟨rfl, e, he, heq⟩)
    · exact ⟨d', hd', by simp [hne]⟩
    · exact ⟨e, he, by simp [heq]⟩

/-- Putting a document in the place of `d` changes nothing only if it is `d`. -/
theorem put_eq_self (hd : d ∈ c.docs) (hid : d'.id = d.id) : c.put d' = c ↔ d' = d := by
  constructor
  · intro h
    have hmem : d' ∈ (c.put d').docs := mem_put.mpr (.inr ⟨rfl, d, hd, hid.symm⟩)
    rw [h] at hmem
    exact eq_of_id hmem hd hid
  · rintro rfl
    have hdocs : (c.put d').docs = c.docs := by
      refine (List.map_congr_left ?_).trans (List.map_id _)
      intro e he
      by_cases h : e.id = d'.id
      · simp [eq_of_id he hd h]
      · simp [h]
    cases c
    simpa [put] using hdocs

theorem get_put_self (h : c.get d.id = some d') : (c.put d).get d.id = some d :=
  get_eq_some.mpr ⟨mem_put.mpr (.inr ⟨rfl, d', mem_of_get h, id_of_get h⟩), rfl⟩

theorem get_put_ne (h : id ≠ d.id) : (c.put d).get id = c.get id := by
  apply Option.ext
  intro e
  simp only [get_eq_some, mem_put]
  constructor
  · rintro ⟨⟨he, -⟩ | ⟨rfl, -⟩, rfl⟩
    · exact ⟨he, rfl⟩
    · exact absurd rfl h
  · rintro ⟨he, rfl⟩
    exact ⟨.inl ⟨he, h⟩, rfl⟩

/-- What is stored stays stored. -/
theorem isSome_get_put (h : (c.get id).isSome) : ((c.put d).get id).isSome := by
  by_cases hid : id = d.id
  · subst hid
    obtain ⟨e, he⟩ := Option.isSome_iff_exists.mp h
    rw [get_put_self he]
    rfl
  · rw [get_put_ne hid]
    exact h

theorem get_insert_self (h : c.get d.id = none) : (c.insert d h).get d.id = some d :=
  get_eq_some.mpr ⟨by simp [insert], rfl⟩

theorem get_insert_ne {h : c.get d.id = none} (hne : id ≠ d.id) :
    (c.insert d h).get id = c.get id := by
  apply Option.ext
  intro e
  simp only [get_eq_some, insert, List.mem_append, List.mem_singleton]
  constructor
  · rintro ⟨he | rfl, rfl⟩
    · exact ⟨he, rfl⟩
    · exact absurd rfl hne
  · rintro ⟨he, rfl⟩
    exact ⟨.inl he, rfl⟩

end Collection
end Mongo
