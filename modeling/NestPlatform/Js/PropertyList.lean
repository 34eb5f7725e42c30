-- SUMMARY: `JSON.stringify` with a property list, which selects and orders the properties of every object.
import Mathlib.Data.List.Perm.Basic
import NestPlatform.Js.Json

/-!
# Property lists

A list of names as the second argument of `JSON.stringify` holds at every depth: of each
object it prints the properties that the list names, in the order of the list. Two values
are then printed alike exactly if they are equal as far as those properties go.
-/
namespace Js

/-! ## `sort` -/

/-- The UTF-16 code units of a character. -/
def codeUnits (c : Char) : List ℕ :=
  if c.toNat < 0x10000 then [c.toNat]
  else [0xd800 + (c.toNat - 0x10000) / 0x400, 0xdc00 + (c.toNat - 0x10000) % 0x400]

def unitsLE : List ℕ → List ℕ → Bool
  | [], _ => true
  | _ :: _, [] => false
  | a :: as, b :: bs => a < b || a == b && unitsLE as bs

/-- The order in which `sort()` puts two strings. -/
def stringLE (k l : String) : Bool :=
  unitsLE (k.toList.flatMap codeUnits) (l.toList.flatMap codeUnits)

/-- `keys.sort()` -/
def sort (keys : List String) : List String := keys.mergeSort stringLE

theorem unitsLE_total (as bs : List ℕ) : (unitsLE as bs || unitsLE bs as) = true := by
  induction as generalizing bs with
  | nil => rfl
  | cons a as ih =>
    cases bs with
    | nil => rfl
    | cons b bs =>
      rcases lt_trichotomy a b with h | rfl | h
      · simp [unitsLE, h]
      · simpa [unitsLE] using ih bs
      · simp [unitsLE, h]

theorem unitsLE_trans {as bs cs : List ℕ} (h : unitsLE as bs = true) (h' : unitsLE bs cs = true) :
    unitsLE as cs = true := by
  induction as generalizing bs cs with
  | nil => rfl
  | cons a as ih =>
    rcases bs with - | ⟨b, bs⟩
    · cases h
    rcases cs with - | ⟨c, cs⟩
    · cases h'
    simp only [unitsLE, Bool.or_eq_true, decide_eq_true_eq, Bool.and_eq_true, beq_iff_eq] at h h' ⊢
    rcases h with h | ⟨rfl, h⟩
    · left
      omega
    · rcases h' with h' | ⟨rfl, h'⟩
      · exact .inl h'
      · exact .inr ⟨rfl, ih h h'⟩

theorem unitsLE_antisymm {as bs : List ℕ} (h : unitsLE as bs = true) (h' : unitsLE bs as = true) :
    as = bs := by
  induction as generalizing bs with
  | nil =>
    cases bs with
    | nil => rfl
    | cons b bs => cases h'
  | cons a as ih =>
    rcases bs with - | ⟨b, bs⟩
    · cases h
    simp only [unitsLE, Bool.or_eq_true, decide_eq_true_eq, Bool.and_eq_true, beq_iff_eq] at h h'
    rcases h with h | ⟨rfl, h⟩
    · omega
    · rcases h' with h' | ⟨-, h'⟩
      · omega
      · rw [ih h h']

/-- The first code unit tells whether there is a second, since no character is a surrogate. -/
theorem codeUnits_append_inj {c d : Char} {as bs : List ℕ}
    (h : codeUnits c ++ as = codeUnits d ++ bs) : c = d ∧ as = bs := by
  have hc := c.valid
  have hd := d.valid
  simp only [UInt32.isValidChar, Nat.isValidChar] at hc hd
  change c.toNat < 0xd800 ∨ 0xdfff < c.toNat ∧ c.toNat < 0x110000 at hc
  change d.toNat < 0xd800 ∨ 0xdfff < d.toNat ∧ d.toNat < 0x110000 at hd
  have hnat : c.toNat = d.toNat ∧ as = bs := by
    unfold codeUnits at h
    split at h <;> split at h
    all_goals
      simp only [List.cons_append, List.nil_append, List.cons.injEq] at h
    · exact h
    · omega
    · omega
    · exact ⟨by omega, h.2.2⟩
  exact ⟨Char.toNat_inj.mp hnat.1, hnat.2⟩

theorem flatMap_codeUnits_inj {cs ds : List Char} (h : cs.flatMap codeUnits = ds.flatMap codeUnits) :
    cs = ds := by
  have hne : ∀ (c : Char) (as : List ℕ), codeUnits c ++ as ≠ [] := fun c as => by
    unfold codeUnits
    split <;> simp
  induction cs generalizing ds with
  | nil =>
    cases ds with
    | nil => rfl
    | cons d ds => exact absurd h.symm (hne d _)
  | cons c cs ih =>
    cases ds with
    | nil => exact absurd h (hne c _)
    | cons d ds =>
      obtain ⟨rfl, htail⟩ := codeUnits_append_inj h
      rw [ih htail]

theorem stringLE_trans (k l m : String) (h : stringLE k l = true) (h' : stringLE l m = true) :
    stringLE k m = true := unitsLE_trans h h'

theorem stringLE_antisymm {k l : String} (h : stringLE k l = true) (h' : stringLE l k = true) : k = l :=
  String.toList_inj.mp (flatMap_codeUnits_inj (unitsLE_antisymm h h'))

@[simp] theorem mem_sort {k : String} {keys : List String} : k ∈ sort keys ↔ k ∈ keys :=
  List.mem_mergeSort

theorem nodup_sort {keys : List String} (h : keys.Nodup) : (sort keys).Nodup :=
  (List.mergeSort_perm _ _).nodup_iff.mpr h

/-- Sorting forgets an order, and nothing else. -/
theorem sort_eq_sort {keys keys' : List String} : sort keys = sort keys' ↔ keys.Perm keys' := by
  constructor
  · intro h
    refine (List.mergeSort_perm keys stringLE).symm.trans ?_
    change (sort keys).Perm keys'
    rw [h]
    exact List.mergeSort_perm keys' stringLE
  · intro h
    have hsorted : ∀ keys : List String, (sort keys).Pairwise fun k l => stringLE k l = true :=
      List.pairwise_mergeSort stringLE_trans fun k l => unitsLE_total _ _
    refine List.Perm.eq_of_pairwise (fun _ _ _ _ => stringLE_antisymm) (hsorted keys) (hsorted keys') ?_
    exact (List.mergeSort_perm _ _).trans (h.trans (List.mergeSort_perm _ _).symm)

/-! ## Selecting properties -/

/-- What an object inherits under the name `__proto__`, as it is printed if the list names it. The
other members of `Object.prototype` are functions, which are not printed. -/
def prototype : Entries := [("__proto__", .null)]

/-- `o[k]` -/
def property (o : Entries) (k : String) : Value :=
  if k = "__proto__" ∧ k ∉ Entries.keys o then .obj prototype else o.get k

/-- The properties that the list names, those that are `undefined` left out. -/
def listed (K : List String) (f : String → Value) : Entries :=
  K.filterMap fun k =>
    match f k with
    | .undefined => none
    | v => some (k, v)

mutual
/-- The value that `JSON.stringify(v, K)` prints. -/
def pick (K : List String) : Value → Value
  | .arr xs => .arr (pickElements K xs)
  | .obj es => .obj (listed K (property (pickEntries K es)))
  | v => v

def pickElements (K : List String) : List Value → List Value
  | [] => []
  | x :: xs => pick K x :: pickElements K xs

def pickEntries (K : List String) : List (String × Value) → List (String × Value)
  | [] => []
  | (k, v) :: es => (k, pick K v) :: pickEntries K es
end

/-! ## Equality through a view of objects -/

/-- Equal as far as `look` tells of the properties of an object, at every level. -/
inductive EqualBy (look : Entries → String → Value) : Value → Value → Prop where
  | refl (v : Value) : EqualBy look v v
  | arr {xs ys : List Value} : xs.length = ys.length →
      (∀ i (h : i < xs.length) (h' : i < ys.length), EqualBy look xs[i] ys[i]) →
      EqualBy look (.arr xs) (.arr ys)
  | obj {es fs : Entries} : (∀ k, EqualBy look (look es k) (look fs k)) →
      EqualBy look (.obj es) (.obj fs)

/-- Equal up to the order of the keys of objects. -/
abbrev Reordered : Value → Value → Prop := EqualBy Entries.get

/-- The properties that a list names. -/
def seen (K : List String) (o : Entries) (k : String) : Value :=
  if k ∈ K then property o k else .undefined

/-- Equal up to the order of keys and the properties that a list does not name. -/
abbrev EqualOn (K : List String) : Value → Value → Prop := EqualBy (seen K)

theorem EqualBy.look_obj {look : Entries → String → Value} {es fs : Entries}
    (h : EqualBy look (.obj es) (.obj fs)) (k : String) : EqualBy look (look es k) (look fs k) := by
  cases h with
  | refl => exact .refl _
  | obj h => exact h k

theorem EqualBy.undefined_iff {look : Entries → String → Value} {v w : Value} (h : EqualBy look v w) :
    v = .undefined ↔ w = .undefined := by
  cases h with
  | refl => rfl
  | arr _ _ | obj _ => simp

theorem EqualBy.eq_of_flat {look : Entries → String → Value} {v w : Value} (h : EqualBy look v w)
    (harr : ∀ xs, v ≠ .arr xs) (hobj : ∀ es, v ≠ .obj es) : v = w := by
  cases h with
  | refl => rfl
  | arr _ _ => exact absurd rfl (harr _)
  | obj _ => exact absurd rfl (hobj _)

/-! ## What is selected -/

section

variable {K : List String}

theorem mem_of_mem_listed {f : String → Value} {e : String × Value} (h : e ∈ listed K f) :
    e.1 ∈ K ∧ f e.1 = e.2 ∧ e.2 ≠ .undefined := by
  obtain ⟨k, hk, he⟩ := List.mem_filterMap.mp h
  split at he
  · cases he
  · rename_i hne
    obtain rfl := Option.some.inj he
    exact ⟨hk, rfl, hne⟩

theorem listed_congr {f g : String → Value} (h : ∀ k ∈ K, f k = g k) : listed K f = listed K g :=
  List.filterMap_congr fun k hk => by rw [h k hk]

theorem listed_cons (k : String) (f : String → Value) :
    listed (k :: K) f = if f k = .undefined then listed K f else (k, f k) :: listed K f := by
  unfold listed
  rw [List.filterMap_cons]
  split <;> rename_i h <;> split at h
  · rw [if_pos ‹_›]
  · cases h
  · cases h
  · obtain rfl := Option.some.inj h
    rw [if_neg ‹_›]

theorem listed_inj (hK : K.Nodup) {f g : String → Value} :
    listed K f = listed K g ↔ ∀ k ∈ K, f k = g k := by
  refine ⟨fun h => ?_, listed_congr⟩
  induction K with
  | nil => simp
  | cons k K ih =>
    obtain ⟨hk, hK⟩ := List.nodup_cons.mp hK
    -- the other list has no entry for `k`
    have hother : ∀ {f g : String → Value}, listed K f ≠ (k, g k) :: listed K g := fun {f g} h =>
      hk (mem_of_mem_listed (f := f) (e := (k, g k)) (by rw [h]; exact List.mem_cons_self)).1
    rw [listed_cons, listed_cons] at h
    rw [List.forall_mem_cons]
    split at h <;> split at h
    · exact ⟨by rw [‹f k = _›, ‹g k = _›], ih hK h⟩
    · exact absurd h hother
    · exact absurd h.symm hother
    · obtain ⟨hhead, htail⟩ := List.cons.inj h
      exact ⟨(Prod.mk.inj hhead).2, ih hK htail⟩

theorem keys_listed {f : String → Value} (h : ∀ k ∈ K, f k ≠ .undefined) :
    Entries.keys (listed K f) = K := by
  induction K with
  | nil => rfl
  | cons k K ih =>
    rw [List.forall_mem_cons] at h
    rw [listed_cons, if_neg h.1]
    exact congrArg (k :: ·) (ih h.2)

theorem keys_pickEntries (es : List (String × Value)) :
    Entries.keys (pickEntries K es) = Entries.keys es := by
  induction es with
  | nil => rfl
  | cons e es ih =>
    simp only [pickEntries, Entries.keys, List.map_cons] at ih ⊢
    rw [ih]

theorem get_pickEntries (es : List (String × Value)) (k : String) :
    Entries.get (pickEntries K es) k = pick K (Entries.get es k) := by
  induction es with
  | nil => rfl
  | cons e es ih =>
    simp only [pickEntries, Entries.get]
    split
    · rfl
    · exact ih

theorem listed_singleton (hK : K.Nodup) {f : String → Value} {k : String} (hk : k ∈ K)
    (hother : ∀ l, l ≠ k → f l = .undefined) (hne : f k ≠ .undefined) : listed K f = [(k, f k)] := by
  induction K with
  | nil => cases hk
  | cons l K ih =>
    obtain ⟨hl, hK⟩ := List.nodup_cons.mp hK
    rw [listed_cons]
    rcases List.mem_cons.mp hk with rfl | hk
    · have hnone : listed K f = [] :=
        List.eq_nil_iff_forall_not_mem.mpr fun e he => by
          obtain ⟨hmem, hvalue, hsome⟩ := mem_of_mem_listed he
          rw [← hvalue, hother e.1 (ne_of_mem_of_not_mem hmem hl)] at hsome
          exact hsome rfl
      rw [if_neg hne, hnone]
    · rw [if_pos (hother l (ne_of_mem_of_not_mem hk hl).symm), ih hK hk]

theorem property_prototype_of_ne {k : String} (h : k ≠ "__proto__") :
    property prototype k = .undefined := by
  rw [property, if_neg fun hk => h hk.1]
  exact Entries.get_cons_ne h.symm

/-- The inherited object shows its one property if the list names it. -/
theorem pick_prototype (hK : K.Nodup) (h : "__proto__" ∈ K) :
    pick K (.obj prototype) = .obj prototype := by
  have hnull : property prototype "__proto__" = .null := rfl
  simp only [pick]
  change Value.obj (listed K (property prototype)) = _
  rw [listed_singleton hK h (fun _ => property_prototype_of_ne) (by simp [hnull]), hnull]
  rfl

theorem property_pickEntries (hK : K.Nodup) {k : String} (hk : k ∈ K) (es : Entries) :
    property (pickEntries K es) k = pick K (property es k) := by
  unfold property
  rw [keys_pickEntries, get_pickEntries]
  split
  · rename_i h
    exact (pick_prototype hK (h.1 ▸ hk)).symm
  · rfl

/-- Objects show the same if their listed properties do. -/
theorem pick_obj_eq_iff (hK : K.Nodup) {es fs : Entries} :
    pick K (.obj es) = pick K (.obj fs) ↔ ∀ k ∈ K, pick K (property es k) = pick K (property fs k) := by
  simp only [pick, Value.obj.injEq]
  rw [listed_inj hK]
  refine forall₂_congr fun k hk => ?_
  rw [property_pickEntries hK hk, property_pickEntries hK hk]

/-! ## Values that are printed alike -/

/-- What is printed as a value without parts is that value. -/
theorem eq_of_pick_eq {v w : Value} (h : pick K v = w) (harr : ∀ xs, w ≠ .arr xs)
    (hobj : ∀ es, w ≠ .obj es) : v = w := by
  cases v with
  | arr xs =>
    simp only [pick] at h
    exact absurd h.symm (harr _)
  | obj es =>
    simp only [pick] at h
    exact absurd h.symm (hobj _)
  | _ => exact h

theorem equalOn_prototype (hK : K.Nodup) {w : Value}
    (h : pick K (.obj prototype) = pick K w) : EqualOn K (.obj prototype) w := by
  cases w with
  | obj fs =>
    rw [pick_obj_eq_iff hK] at h
    refine .obj fun k => ?_
    unfold seen
    split
    · rename_i hk
      have hsame : property fs k = property prototype k := by
        have hfs := (h k hk).symm
        by_cases hproto : k = "__proto__"
        · subst hproto
          exact eq_of_pick_eq hfs nofun nofun
        · rw [property_prototype_of_ne hproto] at hfs ⊢
          exact eq_of_pick_eq hfs nofun nofun
      exact hsame ▸ .refl _
    · exact .refl _
  | _ => simp [pick] at h

mutual
theorem equalOn_of_pick (hK : K.Nodup) : (v w : Value) → pick K v = pick K w → EqualOn K v w
  | .arr xs, w, h => by
    cases w with
    | arr ys =>
      simp only [pick, Value.arr.injEq] at h
      obtain ⟨hlength, helements⟩ := equalOn_of_pickElements hK xs ys h
      exact .arr hlength helements
    | _ => simp [pick] at h
  | .obj es, w, h => by
    cases w with
    | obj fs =>
      rw [pick_obj_eq_iff hK] at h
      refine .obj fun k => ?_
      unfold seen
      split
      · rename_i hk
        have hsame := h k hk
        by_cases hproto : k = "__proto__" ∧ k ∉ Entries.keys es
        · rw [property, if_pos hproto] at hsame ⊢
          exact equalOn_prototype hK hsame
        · rw [property, if_neg hproto] at hsame ⊢
          exact equalOn_of_pickEntries hK es k _ hsame
      · exact .refl _
    | _ => simp [pick] at h
  | .undefined, w, h | .null, w, h | .bool _, w, h | .num _, w, h | .str _, w, h | .date _, w, h => by
    rw [eq_of_pick_eq h.symm nofun nofun]
    exact .refl _

theorem equalOn_of_pickElements (hK : K.Nodup) : (xs ys : List Value) →
    pickElements K xs = pickElements K ys → xs.length = ys.length ∧
      ∀ i (h : i < xs.length) (h' : i < ys.length), EqualOn K xs[i] ys[i]
  | [], ys, h => by
    cases ys with
    | nil => simp
    | cons y ys => simp [pickElements] at h
  | x :: xs, ys, h => by
    cases ys with
    | nil => simp [pickElements] at h
    | cons y ys =>
      simp only [pickElements, List.cons.injEq] at h
      have hx := equalOn_of_pick hK x y h.1
      obtain ⟨hlength, hxs⟩ := equalOn_of_pickElements hK xs ys h.2
      refine ⟨congrArg (· + 1) hlength, fun i hi hi' => ?_⟩
      cases i with
      | zero => exact hx
      | succ i => exact hxs i (Nat.lt_of_succ_lt_succ hi) (Nat.lt_of_succ_lt_succ hi')

theorem equalOn_of_pickEntries (hK : K.Nodup) : (es : List (String × Value)) → ∀ k w,
    pick K (Entries.get es k) = pick K w → EqualOn K (Entries.get es k) w
  | [], k, w, h => by
    rw [eq_of_pick_eq h.symm nofun nofun]
    exact .refl _
  | (l, v) :: es, k, w, h => by
    have hv := equalOn_of_pick hK v w
    have hes := equalOn_of_pickEntries hK es k w
    simp only [Entries.get] at h ⊢
    by_cases hkey : l = k
    · rw [if_pos hkey] at h ⊢
      exact hv h
    · rw [if_neg hkey] at h ⊢
      exact hes h
end

theorem pickElements_eq_map (xs : List Value) : pickElements K xs = xs.map (pick K) := by
  induction xs with
  | nil => rfl
  | cons x xs ih => rw [pickElements, ih, List.map_cons]

theorem EqualBy.pick_eq (hK : K.Nodup) {v w : Value} (h : EqualOn K v w) : pick K v = pick K w := by
  induction h with
  | refl => rfl
  | @arr xs ys hlength _ ih =>
    simp only [pick, pickElements_eq_map]
    congr 1
    refine List.ext_getElem (by simpa using hlength) fun i hi hi' => ?_
    rw [List.getElem_map, List.getElem_map]
    exact ih i _ _
  | obj _ ih =>
    refine (pick_obj_eq_iff hK).mpr fun k hk => ?_
    have hk' := ih k
    rwa [seen, seen, if_pos hk, if_pos hk] at hk'

/-- Printed alike means equal on the list. -/
theorem pick_eq_pick (hK : K.Nodup) {v w : Value} : pick K v = pick K w ↔ EqualOn K v w :=
  ⟨equalOn_of_pick hK v w, fun h => h.pick_eq hK⟩

end

/-! ## JSON values -/

section

variable {N : Spelling} {K : List String}

theorem isJson_get {es : List (String × Value)} (h : EntriesJson N es) (k : String) :
    Entries.get es k = .undefined ∨ IsJson N (Entries.get es k) := by
  induction es with
  | nil => exact .inl rfl
  | cons e es ih =>
    simp only [EntriesJson] at h
    simp only [Entries.get]
    split
    · exact .inr h.1
    · exact ih h.2

/-- No property of a JSON object is `undefined`. -/
theorem mem_keys_iff {es : List (String × Value)} (h : EntriesJson N es) (k : String) :
    k ∈ Entries.keys es ↔ Entries.get es k ≠ .undefined := by
  induction es with
  | nil => simp [Entries.keys]
  | cons e es ih =>
    simp only [EntriesJson] at h
    simp only [Entries.get, Entries.keys, List.map_cons, List.mem_cons]
    split
    · rename_i hkey
      refine iff_of_true (.inl hkey.symm) fun hundefined => ?_
      have hjson := h.1
      rw [hundefined] at hjson
      simp only [IsJson] at hjson
    · rename_i hkey
      rw [← ih h.2]
      exact or_iff_right (Ne.symm hkey)

theorem isJson_property {es : Entries} (h : EntriesJson N es) (k : String) :
    property es k = .undefined ∨ IsJson N (property es k) := by
  unfold property
  split
  · exact .inr (by simp [IsJson, EntriesJson, prototype, Entries.keys])
  · exact isJson_get h k

theorem isJson_listed (hK : K.Nodup) {f : String → Value}
    (h : ∀ k ∈ K, f k = .undefined ∨ IsJson N (f k)) : IsJson N (.obj (listed K f)) := by
  simp only [IsJson]
  induction K with
  | nil => simp [listed, Entries.keys, EntriesJson]
  | cons k K ih =>
    obtain ⟨hk, hK⟩ := List.nodup_cons.mp hK
    rw [List.forall_mem_cons] at h
    obtain ⟨hnodup, hjson⟩ := ih hK h.2
    rw [listed_cons]
    split
    · exact ⟨hnodup, hjson⟩
    · rename_i hsome
      refine ⟨List.nodup_cons.mpr ⟨fun hmem => ?_, hnodup⟩, ?_⟩
      · obtain ⟨e, he, rfl⟩ := List.mem_map.mp hmem
        exact hk (mem_of_mem_listed he).1
      · simp only [EntriesJson]
        exact ⟨h.1.resolve_left hsome, hjson⟩

mutual
/-- What is printed of a JSON value is one. -/
theorem isJson_pick (hK : K.Nodup) : (v : Value) → IsJson N v → IsJson N (pick K v)
  | .arr xs, h => by
    simp only [IsJson] at h
    simp only [pick, IsJson]
    exact allJson_pickElements hK xs h
  | .obj es, h => by
    simp only [IsJson] at h
    simp only [pick]
    exact isJson_listed hK fun k _ => isJson_property (entriesJson_pickEntries hK es h.2) k
  | .null, h | .bool _, h | .num _, h | .str _, h | .undefined, h | .date _, h => h

theorem allJson_pickElements (hK : K.Nodup) :
    (xs : List Value) → AllJson N xs → AllJson N (pickElements K xs)
  | [], h => h
  | x :: xs, h => by
    simp only [AllJson] at h
    simp only [pickElements, AllJson]
    exact ⟨isJson_pick hK x h.1, allJson_pickElements hK xs h.2⟩

theorem entriesJson_pickEntries (hK : K.Nodup) :
    (es : List (String × Value)) → EntriesJson N es → EntriesJson N (pickEntries K es)
  | [], h => h
  | (k, v) :: es, h => by
    simp only [EntriesJson] at h
    simp only [pickEntries, EntriesJson]
    exact ⟨isJson_pick hK v h.1, entriesJson_pickEntries hK es h.2⟩
end

/-- Equal objects have the same keys. -/
theorem EqualBy.keys_perm {es fs : Entries} (h : Reordered (.obj es) (.obj fs))
    (hes : IsJson N (.obj es)) (hfs : IsJson N (.obj fs)) :
    (Entries.keys es).Perm (Entries.keys fs) := by
  simp only [IsJson] at hes hfs
  refine (List.perm_ext_iff_of_nodup hes.1 hfs.1).mpr fun k => ?_
  rw [mem_keys_iff hes.2, mem_keys_iff hfs.2, ne_eq, ne_eq, (h.look_obj k).undefined_iff]

theorem isJson_getElem {xs : List Value} (h : AllJson N xs) (i : ℕ) (hi : i < xs.length) :
    IsJson N xs[i] := by
  induction xs generalizing i with
  | nil => cases hi
  | cons x xs ih =>
    simp only [AllJson] at h
    cases i with
    | zero => exact h.1
    | succ i => exact ih h.2 i (Nat.lt_of_succ_lt_succ hi)

/-- Reordered values are equal on every list. -/
theorem EqualBy.equalOn {v w : Value} (h : Reordered v w) (hv : v = .undefined ∨ IsJson N v)
    (hw : w = .undefined ∨ IsJson N w) : EqualOn K v w := by
  induction h with
  | refl => exact .refl _
  | @arr xs ys hlength _ ih =>
    have hxs := hv.resolve_left nofun
    have hys := hw.resolve_left nofun
    simp only [IsJson] at hxs hys
    exact .arr hlength fun i hi hi' =>
      ih i hi hi' (.inr (isJson_getElem hxs i hi)) (.inr (isJson_getElem hys i hi'))
  | @obj es fs hsame ih =>
    have hes := hv.resolve_left nofun
    have hfs := hw.resolve_left nofun
    simp only [IsJson] at hes hfs
    refine .obj fun k => ?_
    have hkeys : k ∈ Entries.keys es ↔ k ∈ Entries.keys fs := by
      rw [mem_keys_iff hes.2, mem_keys_iff hfs.2, ne_eq, ne_eq, (hsame k).undefined_iff]
    unfold seen
    split
    · by_cases hproto : k = "__proto__" ∧ k ∉ Entries.keys es
      · rw [property, property, if_pos hproto, if_pos (by rwa [← hkeys])]
        exact .refl _
      · rw [property, property, if_neg hproto, if_neg (by rwa [← hkeys])]
        exact ih k (isJson_get hes.2 k) (isJson_get hfs.2 k)
    · exact .refl _

/-- Properties may come in any order. -/
theorem reordered_of_perm {es fs : Entries} (h : es.Perm fs) (hes : (Entries.keys es).Nodup) :
    Reordered (.obj es) (.obj fs) := by
  have hfs : (Entries.keys fs).Nodup := (h.map _).nodup_iff.mp hes
  have hle : ∀ {es fs : Entries}, es.Perm fs → (Entries.keys fs).Nodup → ∀ k,
      es.get k ≠ .undefined → fs.get k = es.get k := fun {es fs} h hfs k hk =>
    Entries.get_of_mem hfs (h.mem_iff.mp (Entries.mem_of_get hk))
  have hget : ∀ k, es.get k = fs.get k := by
    intro k
    by_cases hk : es.get k = .undefined
    · by_cases hk' : fs.get k = .undefined
      · rw [hk, hk']
      · exact hle h.symm hes k hk'
    · exact (hle h hfs k hk).symm
  exact .obj fun k => hget k ▸ .refl _

end

end Js
