-- SUMMARY: What the operations of a repository return is what a query of the collection shows afterwards.
import NestPlatform.Database.AbstractRepository

/-!
# Shown documents

A write returns the document as a query would show it then, and a read shows it as it is. So what
has been returned can be read again until the document is written.
-/
namespace Database

open Js Mongo Nest Effect

/-! ## Documents -/

/-- The document is one of the collection, as a query shows it. -/
def Shown (S : Schema) (c : Collection) (r : Doc) : Prop :=
  ∃ d, c.get r.id = some d ∧ r = hydrate S [] d

/-- No path is hidden or has a name that the answers use themselves. -/
structure Displayed (S : Schema) : Prop where
  select : ∀ p ∈ S, p.select = true
  name : ∀ p ∈ S, p.name ∉ ["items", "createdAt", "updatedAt"]

/-- Whenever the effect returns, its documents are shown from then on. -/
def Shows {α : Type} (S : Schema) (docs : α → List Doc) (x : Store α) : Prop :=
  ∀ c c' a, x.exec c = (.ok a, c') → ∀ r ∈ docs a, Shown S c' r

variable {M : Mongoose} {S : Schema} {env : Env} {α β : Type} {docs : α → List Doc}

theorem Displayed.path_eq_none (hS : Displayed S) {k : String}
    (hk : k ∈ ["items", "createdAt", "updatedAt"]) : S.path k = none := by
  cases hp : S.path k with
  | none => rfl
  | some p =>
    have hname : p.name = k := by
      have hfound := List.find?_some hp
      simpa using hfound
    exact absurd (hname ▸ hk) (hS.name p (List.mem_of_find?_eq_some hp))

theorem version_construct {dto : Entries} {d : Doc} (hd : construct M S env dto = some d) :
    d.fields "__v" = .nat 0 := by
  unfold construct at hd
  simp only [Option.bind_eq_bind, Option.bind_eq_some_iff, Option.some.injEq] at hd
  obtain ⟨id, -, fields, -, created, -, rfl⟩ := hd
  simp [Fields.assign]

/-- A document that is created without dotted keys is shown as it is stored. -/
theorem hydrate_construct (hS : Displayed S) {dto : Entries} {d : Doc}
    (hd : construct M S env dto = some d) (hdotted : dottedRoots dto = []) : hydrate S [] d = d := by
  have hshown : (hydrate S [] d).fields = d.fields := by
    funext k
    unfold hydrate
    cases hp : S.path k with
    | none => simp only [hp]
    | some p =>
      simp only [hp, hS.select p (List.mem_of_find?_eq_some hp), Bool.true_or, if_true]
      split
      case isFalse => rfl
      rename_i hmissing
      by_cases hmeta : k ∈ ["createdAt", "updatedAt", "__v"]
      · have hversion : k = "__v" := by
          by_contra hne
          have hstamp : k ∈ ["items", "createdAt", "updatedAt"] := by
            simp only [List.mem_cons, List.not_mem_nil, or_false] at hmeta ⊢
            rcases hmeta with hmeta | hmeta | hmeta
            · exact .inr (.inl hmeta)
            · exact .inr (.inr hmeta)
            · exact absurd hmeta hne
          rw [hS.path_eq_none hstamp] at hp
          cases hp
        subst hversion
        rw [version_construct hd] at hmissing
        cases hmissing
      · have hk : k ∉ dottedRoots dto := by simp [hdotted]
        cases construct_cases hd hp hk hmeta with
        | inl hdefault => exact hdefault.symm
        | inr hset =>
          obtain ⟨v, -, -, hdefined⟩ := hset
          exact absurd hmissing hdefined
  exact congrArg (Doc.mk d.id) hshown

/-- The services put `userId` under a body, and this has no dots. -/
theorem dottedRoots_userId (v : Value) {es : Entries} (h : dottedRoots es = []) :
    dottedRoots (Entries.assign [("userId", v)] es) = [] := by
  have hkey : isDottedKey "userId" = false := by decide
  have hnone : dottedRoots [("userId", v)] = [] := by simp [dottedRoots, Entries.keys, hkey]
  have hsub := dottedRoots_assign [("userId", v)] es
  rw [hnone, h] at hsub
  exact List.eq_nil_of_subset_nil hsub

/-! ## Operations -/

theorem exec_query_eq_ok {f : Collection → Except Fault α} {c c' : Collection} {a : α}
    (h : (query f).exec c = (.ok a, c')) : c' = c ∧ f c = .ok a := by
  rw [exec_query] at h
  cases hf : f c with
  | error fault =>
    rw [hf] at h
    cases h
  | ok b =>
    rw [hf] at h
    cases h
    exact ⟨rfl, rfl⟩

namespace Shows

theorem throw (e : Thrown) : Shows S docs (throw e : Store α) := by
  intro c c' a h
  cases h

theorem map {x : Store β} {f : β → α} (hx : Shows S (fun b => docs (f b)) x) :
    Shows S docs (f <$> x) := by
  intro c c' a h
  obtain ⟨b, hb, rfl⟩ := exec_map_eq_ok h
  exact hx c c' b hb

/-- What the last part of a block returns. -/
theorem bind {x : Store β} {f : β → Store α} (hf : ∀ b, Shows S docs (f b)) :
    Shows S docs (x >>= f) := by
  intro c c' a h
  obtain ⟨b, c₁, -, hb⟩ := exec_bind_eq_ok.mp h
  exact hf b c₁ c' a hb

theorem findById (s : String) :
    Shows S (fun r => [r]) (AbstractRepository.findById M S env (.str s)) := by
  intro c c' r h
  obtain ⟨rfl, d, -, hd, rfl⟩ := AbstractRepository.exec_findById_eq_ok h
  intro r hr
  obtain rfl := List.mem_singleton.mp hr
  exact ⟨d, hd, rfl⟩

theorem findOneAndUpdate (filterQuery : Filter) (u : Update) :
    Shows S (fun r => [r]) (AbstractRepository.findOneAndUpdate M S env filterQuery u) := by
  intro c c' r h
  rcases AbstractRepository.exec_findOneAndUpdate h with
    ⟨-, e, he⟩ | ⟨p, f, d, fields, -, -, hd, -, hr, rfl⟩
  · cases he
  · obtain rfl := Except.ok.inj hr
    intro r hr
    obtain rfl := List.mem_singleton.mp hr
    exact ⟨_, get_put_touch (Collection.get_of_mem (find?_scan_eq_some hd).1) env fields, rfl⟩

theorem create (hS : Displayed S) {dto : Entries} (hdotted : dottedRoots dto = []) :
    Shows S (fun r => [r]) (AbstractRepository.create M S env dto) := by
  intro c c' r h
  rcases AbstractRepository.exec_create h with ⟨-, e, he⟩ | ⟨d, hnew, hd, -, hr, rfl⟩
  · cases he
  · obtain rfl := Except.ok.inj hr
    intro r' hr'
    obtain rfl := List.mem_singleton.mp hr'
    exact ⟨_, Collection.get_insert_self hnew, (hydrate_construct hS hd hdotted).symm⟩

theorem findPage (filterQuery : Filter) (options : QueryOptions) :
    Shows S Page.items (AbstractRepository.findPage M S env filterQuery options) := by
  intro c c' page h
  unfold AbstractRepository.findPage AbstractRepository.find AbstractRepository.countDocuments at h
  obtain ⟨items, c₁, hfind, hrest⟩ := exec_bind_eq_ok.mp h
  obtain ⟨total, c₂, hcount, hpage⟩ := exec_bind_eq_ok.mp hrest
  obtain ⟨hfound, hitems⟩ := exec_query_eq_ok hfind
  obtain ⟨hcounted, -⟩ := exec_query_eq_ok hcount
  cases hpage
  rw [hcounted, hfound]
  obtain ⟨p, -, hall⟩ := find_eq_ok hitems
  intro r hr
  obtain ⟨d, hd, -, rfl⟩ := hall r hr
  exact ⟨d, Collection.get_of_mem hd, rfl⟩

end Shows

/-! ## Answers -/

/-- What an answer to a read of the document has. -/
def reading (S : Schema) (c : Collection) (id : ObjectId) : Option Value :=
  (c.get id).map fun d => toObject S (hydrate S [] d)

/-- The data of an answer has the document with the id as `v`, by itself or in a page. -/
def Has (data : Value) (id : ObjectId) (v : Value) : Prop :=
  Entries.get v.entries "_id" = .str id.toString ∧
    (data = v ∨ ∃ items, Entries.get data.entries "items" = .arr items ∧ v ∈ items)

variable {id : ObjectId} {v : Value}

/-- An answer without entries has nothing. -/
theorem not_has {data : Value} (h : data.entries = []) : ¬ Has data id v := by
  rintro ⟨hid, hone | ⟨items, hitems, -⟩⟩
  · rw [← hone, h] at hid
    cases hid
  · rw [h] at hitems
    cases hitems

theorem Shown.reading {c : Collection} {r : Doc} (h : Shown S c r) :
    reading S c r.id = some (toObject S r) := by
  obtain ⟨d, hd, hr⟩ := h
  unfold Database.reading
  rw [hd, Option.map_some, ← hr]

theorem get_items_toObject (hS : Displayed S) (d : Doc) :
    Entries.get (toObject S d).entries "items" = .undefined := by
  by_contra hne
  have hmem := Entries.mem_of_get hne
  unfold toObject at hmem
  simp only [Value.entries_obj, List.mem_cons, List.mem_filter, List.mem_map] at hmem
  rcases hmem with hid | ⟨⟨k, hk, heq⟩, -⟩
  · exact absurd (Prod.mk.inj hid).1 (by decide)
  · obtain ⟨rfl, -⟩ := Prod.mk.inj heq
    cases List.mem_append.mp hk with
    | inl hname =>
      obtain ⟨p, hp, hname⟩ := List.mem_map.mp hname
      exact hS.name p hp (by simp [hname])
    | inr hstamp => simp at hstamp

/-- A document alone is what its answer has. -/
theorem has_toObject (hS : Displayed S) {d : Doc} (h : Has (toObject S d) id v) :
    ∃ r ∈ [d], v = toObject S r ∧ r.id = id := by
  obtain ⟨hid, hone | ⟨items, hitems, -⟩⟩ := h
  · subst hone
    have hsame : Value.str d.id.toString = .str id.toString := hid
    exact ⟨d, List.mem_singleton_self d, rfl, ObjectId.toString_inj.mp (Value.str.inj hsame)⟩
  · rw [get_items_toObject hS] at hitems
    cases hitems

theorem has_page {page : Page} (h : Has (page.toObject S) id v) :
    ∃ r ∈ page.items, v = toObject S r ∧ r.id = id := by
  obtain ⟨hid, hone | ⟨items, hitems, hv⟩⟩ := h
  · subst hone
    cases hid
  · cases hitems
    obtain ⟨r, hr, rfl⟩ := List.mem_map.mp hv
    have hsame : Value.str r.id.toString = .str id.toString := hid
    exact ⟨r, hr, rfl, ObjectId.toString_inj.mp (Value.str.inj hsame)⟩

/-- What an answer has can be read afterwards. -/
theorem Shows.reading {x : Store α} (hx : Shows S docs x) {answer : α → Value}
    (hanswer : ∀ a, Has (answer a) id v → ∃ r ∈ docs a, v = toObject S r ∧ r.id = id)
    {c c' : Collection} {data : Value} (h : (answer <$> x).exec c = (.ok data, c'))
    (hhas : Has data id v) : Database.reading S c' id = some v := by
  obtain ⟨a, ha, rfl⟩ := exec_map_eq_ok h
  obtain ⟨r, hr, rfl, rfl⟩ := hanswer a hhas
  exact (hx c c' a ha r hr).reading

end Database
