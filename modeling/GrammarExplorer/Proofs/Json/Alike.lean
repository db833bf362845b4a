/-
JSON values that differ in nothing that counts.

What counts is told by an equivalence of values, put together like a decoder.
In a list and in a dictionary the order counts, in a table it does not, and in
a record neither the order counts nor members that are none of its fields. Such
records come from one another by steps: members change places, another member
is put in, a value is replaced by one that is alike (`recordLike_of_perm`,
`recordLike_insert`, `recordLike_replace`).

A relation that asks for no more than what counts holds of alike values alike
(`Keeps`). For records this comes down to their fields
(`exists_fields_of_alike`).
-/
import GrammarExplorer.Proofs.Json.Shape
import Mathlib.Data.List.Perm.Basic

namespace GrammarExplorer

/-! ## Lists -/

section Lists

variable {α : Type}

/-- Lists that are alike item by item. -/
def inOrder (s : Setoid α) : Setoid (List α) where
  r := List.Forall₂ s.r
  iseqv.refl _ := List.forall₂_same.2 fun x _ => s.refl x
  iseqv.symm h := (h.imp fun _ _ => s.symm).flip
  iseqv.trans h h' :=
    (Json.forall₂_comp_iff.2 ⟨_, h, h'⟩).imp fun _ _ ⟨_, hxy, hyz⟩ => s.trans hxy hyz

/-- Lists that are alike item by item once one of them is put into another
order. -/
def inAnyOrder (s : Setoid α) : Setoid (List α) where
  r xs ys := ∃ kept, xs.Perm kept ∧ (inOrder s).r kept ys
  iseqv.refl xs := ⟨xs, .refl xs, (inOrder s).refl xs⟩
  iseqv.symm := by
    rintro xs ys ⟨kept, hperm, hall⟩
    obtain ⟨kept', hall', hperm'⟩ := List.perm_comp_forall₂ hperm hall
    exact ⟨kept', hperm'.symm, (inOrder s).symm hall'⟩
  iseqv.trans := by
    rintro xs ys zs ⟨kept, hperm, hall⟩ ⟨kept', hperm', hall'⟩
    obtain ⟨both, hboth, hperm''⟩ := List.perm_comp_forall₂ hperm'.symm ((inOrder s).symm hall)
    exact ⟨both, hperm.trans hperm''.symm, (inOrder s).trans ((inOrder s).symm hboth) hall'⟩

theorem inAnyOrder_of_perm (s : Setoid α) {xs ys : List α} (h : xs.Perm ys) :
    (inAnyOrder s).r xs ys := ⟨ys, h, (inOrder s).refl ys⟩

theorem inAnyOrder_of_inOrder {s : Setoid α} {xs ys : List α} (h : (inOrder s).r xs ys) :
    (inAnyOrder s).r xs ys := ⟨xs, .refl xs, h⟩

/-- With different keys, it is the key that tells what is found. -/
theorem find?_key_eq_some_iff {xs : List (String × α)} (h : (xs.map (·.1)).Nodup) {key : String}
    {x : String × α} : xs.find? (·.1 == key) = some x ↔ x ∈ xs ∧ x.1 = key := by
  constructor
  · intro hx
    exact ⟨List.mem_of_find?_eq_some hx, by simpa using List.find?_some hx⟩
  · rintro ⟨hmem, rfl⟩
    have hsome : (xs.find? (·.1 == x.1)).isSome := List.find?_isSome.2 ⟨x, hmem, by simp⟩
    obtain ⟨y, hy⟩ := Option.isSome_iff_exists.1 hsome
    have hkey : y.1 = x.1 := by simpa using List.find?_some hy
    rw [hy, List.inj_on_of_nodup_map h (List.mem_of_find?_eq_some hy) hmem hkey]

theorem find?_key_perm {xs ys : List (String × α)} (h : xs.Perm ys) (hkeys : (xs.map (·.1)).Nodup)
    (key : String) : xs.find? (·.1 == key) = ys.find? (·.1 == key) := by
  refine Option.ext fun x => ?_
  rw [find?_key_eq_some_iff hkeys, find?_key_eq_some_iff ((h.map _).nodup_iff.1 hkeys), h.mem_iff]

end Lists

namespace Json

variable {α : Type}

/-! ## Values -/

/-- Members of one key, with values that are alike in what counts there. -/
def memberLike (values : String → Setoid Json) : Setoid (String × Json) where
  r m m' := m.1 = m'.1 ∧ (values m.1).r m.2 m'.2
  iseqv.refl m := ⟨rfl, (values m.1).refl m.2⟩
  iseqv.symm := by
    rintro ⟨key, v⟩ ⟨_, w⟩ ⟨rfl, h⟩
    exact ⟨rfl, (values key).symm h⟩
  iseqv.trans := by
    rintro ⟨key, v⟩ ⟨_, w⟩ ⟨_, u⟩ ⟨rfl, h⟩ ⟨rfl, h'⟩
    exact ⟨rfl, (values key).trans h h'⟩

/-- All that there is of a value counts. -/
def exactly : Setoid Json := ⟨Eq, eq_equivalence⟩

/-- Values of one kind with contents that are alike; values of other kinds have
to be equal. -/
def contentLike {β : Type} {make : β → Json} (hmake : Function.Injective make) (s : Setoid β) :
    Setoid Json where
  r v w := v = w ∨ ∃ b c, v = make b ∧ w = make c ∧ s.r b c
  iseqv.refl v := .inl rfl
  iseqv.symm := by
    rintro v w (rfl | ⟨b, c, rfl, rfl, h⟩)
    · exact .inl rfl
    · exact .inr ⟨c, b, rfl, rfl, s.symm h⟩
  iseqv.trans := by
    rintro v w u (rfl | ⟨b, c, rfl, rfl, h⟩) (rfl | ⟨c', d, hc, rfl, h'⟩)
    · exact .inl rfl
    · exact .inr ⟨c', d, hc, rfl, h'⟩
    · exact .inr ⟨b, c, rfl, rfl, h⟩
    · obtain rfl := hmake hc
      exact .inr ⟨b, d, rfl, rfl, s.trans h h'⟩

theorem array_injective : Function.Injective array := fun _ _ => array.inj

theorem object_injective : Function.Injective object := fun _ _ => object.inj

/-- Lists with items that are alike. -/
def listLike (item : Setoid Json) : Setoid Json := contentLike array_injective (inOrder item)

/-- Objects with values that are alike, under the same keys in the same
order. -/
def dictionaryLike (value : Setoid Json) : Setoid Json :=
  contentLike object_injective (inOrder (memberLike fun _ => value))

/-- Objects with values that are alike, under the same keys in any order. -/
def tableLike (value : Setoid Json) : Setoid Json :=
  contentLike object_injective (inAnyOrder (memberLike fun _ => value))

/-- What counts of the value of a field. -/
def fieldLike (fields : List (String × Setoid Json)) (key : String) : Setoid Json :=
  (fields.lookup key).getD exactly

/-- The members of an object that are fields of a record. -/
def fieldMembers (fields : List (String × Setoid Json)) (members : List (String × Json)) :
    List (String × Json) :=
  members.filter fun m => fields.any (·.1 == m.1)

/-- Records with fields that are alike: objects, in which the fields come in
any order and between any other members, or lists of the fields. -/
inductive RecordAlike (fields : List (String × Setoid Json)) : Json → Json → Prop
  | refl (v : Json) : RecordAlike fields v v
  | object {ms ms' : List (String × Json)}
    (members : (inAnyOrder (memberLike (fieldLike fields))).r (fieldMembers fields ms)
      (fieldMembers fields ms')) :
    RecordAlike fields (.object ms) (.object ms')
  | list {items items' : List Json} (length : items.length = items'.length)
    (members : (inOrder (memberLike (fieldLike fields))).r ((fields.map (·.1)).zip items)
      ((fields.map (·.1)).zip items')) :
    RecordAlike fields (.array items) (.array items')

/-- Records with fields that are alike. -/
def recordLike (fields : List (String × Setoid Json)) : Setoid Json where
  r := RecordAlike fields
  iseqv.refl := .refl
  iseqv.symm := by
    rintro v w (_ | h | ⟨hlength, h⟩)
    · exact .refl v
    · exact .object ((inAnyOrder _).symm h)
    · exact .list hlength.symm ((inOrder _).symm h)
  iseqv.trans := by
    rintro v w u (_ | h | ⟨hlength, h⟩) h'
    · exact h'
    · cases h' with
      | refl => exact .object h
      | object h' => exact .object ((inAnyOrder _).trans h h')
    · cases h' with
      | refl => exact .list hlength h
      | list hlength' h' => exact .list (hlength.trans hlength') ((inOrder _).trans h h')

/-- Records of fields in whose values all counts. -/
def plainLike (names : List String) : Setoid Json :=
  recordLike (names.map fun name => (name, exactly))

/-! ## Records -/

section Records

variable {fields : List (String × Setoid Json)} {ms ms' : List (String × Json)}

/-- The order of the members does not count. -/
theorem recordLike_of_perm (h : ms.Perm ms') : (recordLike fields).r (.object ms) (.object ms') :=
  .object (inAnyOrder_of_perm _ (h.filter _))

/-- Other members do not count. -/
theorem recordLike_insert (before after : List (String × Json)) {key : String}
    (hkey : key ∉ fields.map (·.1)) (v : Json) : (recordLike fields).r
      (.object (before ++ after)) (.object (before ++ (key, v) :: after)) := by
  have hnone : fields.any (·.1 == key) = false := by
    rw [List.any_eq_false]
    exact fun f hf heq => hkey (List.mem_map.2 ⟨f, hf, by simpa using heq⟩)
  have hsame : fieldMembers fields (before ++ (key, v) :: after)
      = fieldMembers fields (before ++ after) := by
    simp [fieldMembers, hnone]
  exact .object (hsame ▸ (inAnyOrder _).refl _)

theorem fieldLike_of_mem (hfields : (fields.map (·.1)).Nodup) {f : String × Setoid Json}
    (hf : f ∈ fields) : fieldLike fields f.1 = f.2 := by
  induction fields with
  | nil => cases hf
  | cons g fields ih =>
    rw [List.map_cons, List.nodup_cons] at hfields
    rw [fieldLike, List.lookup_cons]
    rcases List.mem_cons.1 hf with rfl | hf
    · simp
    · have hne : f.1 ≠ g.1 := fun heq => hfields.1 (heq ▸ List.mem_map_of_mem hf)
      rw [beq_false_of_ne hne]
      exact ih hfields.2 hf

/-- What does not count of the value of a field does not count of the record. -/
theorem recordLike_replace (before after : List (String × Json))
    (hfields : (fields.map (·.1)).Nodup) {f : String × Setoid Json} (hf : f ∈ fields) {v w : Json}
    (hvw : f.2.r v w) : (recordLike fields).r
      (.object (before ++ (f.1, v) :: after)) (.object (before ++ (f.1, w) :: after)) := by
  let s := memberLike (fieldLike fields)
  have hmember : s.r (f.1, v) (f.1, w) := ⟨rfl, by rwa [fieldLike_of_mem hfields hf]⟩
  have hmembers : (inOrder s).r (before ++ (f.1, v) :: after) (before ++ (f.1, w) :: after) :=
    List.rel_append ((inOrder s).refl before) (.cons hmember ((inOrder s).refl after))
  refine .object (inAnyOrder_of_inOrder (List.rel_filter ?_ hmembers))
  rintro m m' ⟨hkey, -⟩
  simp only [hkey]

theorem member?_perm (h : ms.Perm ms') (hkeys : (ms.map (·.1)).Nodup) (key : String) :
    member? ms key = member? ms' key :=
  congrArg (Option.map _) (find?_key_perm h hkeys key)

theorem member?_filter (p : String → Bool) {key : String} (hkey : p key = true) :
    member? (ms.filter fun m => p m.1) key = member? ms key := by
  induction ms with
  | nil => rfl
  | cons m ms ih =>
    rw [member?_cons, ← ih]
    by_cases heq : m.1 = key
    · rw [List.filter_cons_of_pos (by rwa [heq]), member?_cons]
    · rw [if_neg heq, List.filter_cons]
      split
      · rw [member?_cons, if_neg heq]
      · rfl

theorem member?_fieldMembers {f : String × Setoid Json} (hf : f ∈ fields) :
    member? (fieldMembers fields ms) f.1 = member? ms f.1 :=
  member?_filter (fun key => fields.any (·.1 == key))
    (List.any_eq_true.2 ⟨f, hf, beq_self_eq_true _⟩)

/-- Alike members have alike values for every key. -/
theorem member?_inOrder {values : String → Setoid Json}
    (h : (inOrder (memberLike values)).r ms ms') (key : String) :
    Option.Rel (values key).r (member? ms key) (member? ms' key) := by
  induction h with
  | nil => exact .none
  | cons hm _ ih =>
    obtain ⟨hkey, hvalue⟩ := hm
    rw [member?_cons, member?_cons, ← hkey]
    split
    · next heq =>
      subst heq
      exact .some hvalue
    · exact ih

theorem member?_inAnyOrder {values : String → Setoid Json}
    (h : (inAnyOrder (memberLike values)).r ms ms') (hkeys : (ms.map (·.1)).Nodup) (key : String) :
    Option.Rel (values key).r (member? ms key) (member? ms' key) := by
  obtain ⟨kept, hperm, hall⟩ := h
  rw [member?_perm hperm hkeys]
  exact member?_inOrder hall key

/-- Values of one field in two records that are alike in what counts of it, if
the field is there. -/
def FieldsAlike (s : Setoid Json) : Option Json → Option Json → Prop :=
  Option.Rel fun v w => v.keyed = true ∧ w.keyed = true ∧ s.r v w

theorem fieldsAlike {s : Setoid Json} {x y : Option Json} (h : Option.Rel s.r x y)
    (hx : ∀ v, x = some v → v.keyed = true) (hy : ∀ v, y = some v → v.keyed = true) :
    FieldsAlike s x y := by
  cases h with
  | none => exact .none
  | some h => exact .some ⟨hx _ rfl, hy _ rfl, h⟩

theorem fieldsAlike_refl (s : Setoid Json) {x : Option Json}
    (hx : ∀ v, x = some v → v.keyed = true) : FieldsAlike s x x := by
  refine fieldsAlike ?_ hx hx
  cases x with
  | none => exact .none
  | some v => exact .some (s.refl v)

/-- Alike objects have alike fields. -/
theorem exists_members_of_alike (hfields : (fields.map (·.1)).Nodup) {w : Json}
    (h : (recordLike fields).r (.object ms) w) (hv : (Json.object ms).keyed = true)
    (hw : w.keyed = true) : ∃ ms', w = .object ms' ∧
      ∀ f ∈ fields, FieldsAlike f.2 (member? ms f.1) (member? ms' f.1) := by
  cases h with
  | refl => exact ⟨ms, rfl, fun f _ => fieldsAlike_refl _ fun _ => keyed_of_member? hv⟩
  | object hmembers =>
    have hkeys : ((fieldMembers fields ms).map (·.1)).Nodup :=
      (keyed_object.1 hv).1.sublist (List.filter_sublist.map _)
    refine ⟨_, rfl, fun f hf => ?_⟩
    have halike := member?_inAnyOrder hmembers hkeys f.1
    rw [member?_fieldMembers hf, member?_fieldMembers hf, fieldLike_of_mem hfields hf] at halike
    exact fieldsAlike halike (fun _ => keyed_of_member? hv) fun _ => keyed_of_member? hw

/-- Alike records have alike fields. -/
theorem exists_fields_of_alike (hfields : (fields.map (·.1)).Nodup) {least : Nat} {v w : Json}
    {field : String → Option Json} (h : (recordLike fields).r v w) (hv : v.keyed = true)
    (hw : w.keyed = true) (hrecord : IsRecord (fields.map (·.1)) least v field) :
    ∃ field', IsRecord (fields.map (·.1)) least w field' ∧
      ∀ f ∈ fields, FieldsAlike f.2 (field f.1) (field' f.1) := by
  cases hrecord with
  | object ms =>
    obtain ⟨ms', rfl, hall⟩ := exists_members_of_alike hfields h hv hw
    exact ⟨_, .object ms', hall⟩
  | list items enough fit =>
    have hrecord : IsRecord (fields.map (·.1)) least (.array items) _ := .list items enough fit
    cases h with
    | refl => exact ⟨_, hrecord, fun f _ => fieldsAlike_refl _ (hrecord.keyed hv f.1)⟩
    | @list _ items' hlength hmembers =>
      have hrecord' : IsRecord (fields.map (·.1)) least (.array items') _ :=
        .list items' (hlength ▸ enough) (hlength ▸ fit)
      refine ⟨_, hrecord', fun f hf => ?_⟩
      have halike := member?_inOrder hmembers f.1
      rw [fieldLike_of_mem hfields hf] at halike
      exact fieldsAlike halike (hrecord.keyed hv f.1) (hrecord'.keyed hw f.1)

end Records

/-! ## What is kept -/

/-- Whether alike values say the same. -/
def Keeps (s : Setoid Json) (R : Json → α → Prop) : Prop :=
  ∀ v w a, v.keyed = true → w.keyed = true → s.r v w → R v a → R w a

section Keeps

variable {s : Setoid Json} {R : Json → α → Prop} {x y : Option Json} {a missing : α}

theorem keeps_exactly : Keeps exactly R := by
  rintro v _ a - - rfl h
  exact h

theorem FieldsAlike.eq (h : FieldsAlike exactly x y) : x = y := by
  cases h with
  | none => rfl
  | some h => exact congrArg some h.2.2

theorem Required.keep (h : Required R x a) (hs : Keeps s R) (hxy : FieldsAlike s x y) :
    Required R y a := by
  obtain ⟨v, rfl, hv⟩ := h
  cases hxy with
  | some hvw => exact ⟨_, rfl, hs _ _ _ hvw.1 hvw.2.1 hvw.2.2 hv⟩

theorem Omissible.keep (h : Omissible R missing x a) (hs : Keeps s R) (hxy : FieldsAlike s x y) :
    Omissible R missing y a := by
  cases hxy with
  | none => exact h
  | some hvw => exact hs _ _ _ hvw.1 hvw.2.1 hvw.2.2 h

/-- Relations between items hand on what the items say. -/
theorem forall₂_carry {β γ δ ε : Type} {S : β → γ → Prop} {R : β → δ → Prop} {R' : γ → ε → Prop}
    {E : δ → ε → Prop} {xs : List β} {ys : List γ} {as : List δ}
    (h : ∀ x ∈ xs, ∀ y ∈ ys, S x y → ∀ a, R x a → ∃ b, E a b ∧ R' y b)
    (hS : List.Forall₂ S xs ys) (hR : List.Forall₂ R xs as) :
    ∃ bs, List.Forall₂ E as bs ∧ List.Forall₂ R' ys bs := by
  induction hS generalizing as with
  | nil =>
    cases hR
    exact ⟨[], .nil, .nil⟩
  | cons hxy _ ih =>
    cases hR with
    | cons hxa hR =>
      obtain ⟨b, hab, hyb⟩ := h _ List.mem_cons_self _ List.mem_cons_self hxy _ hxa
      obtain ⟨bs, hE, hR'⟩ := ih (fun x hx y hy =>
        h x (List.mem_cons_of_mem _ hx) y (List.mem_cons_of_mem _ hy)) hR
      exact ⟨b :: bs, .cons hab hE, .cons hyb hR'⟩

theorem forall₂_keep {β γ δ : Type} {S : β → γ → Prop} {R : β → δ → Prop} {R' : γ → δ → Prop}
    {xs : List β} {ys : List γ} {as : List δ}
    (h : ∀ x ∈ xs, ∀ y ∈ ys, S x y → ∀ a, R x a → R' y a)
    (hS : List.Forall₂ S xs ys) (hR : List.Forall₂ R xs as) : List.Forall₂ R' ys as := by
  obtain ⟨bs, hE, hR'⟩ := forall₂_carry (E := Eq)
    (fun x hx y hy hxy a ha => ⟨a, rfl, h x hx y hy hxy a ha⟩) hS hR
  rw [List.forall₂_eq_eq_eq] at hE
  rwa [hE]

/-- A record of fields all of whose values count says what its fields say. -/
theorem keeps_plain {names : List String} {least : Nat} {P : (String → Option Json) → α → Prop}
    (hnames : names.Nodup)
    (hP : ∀ {field field' a}, (∀ name ∈ names, field' name = field name) → P field a → P field' a) :
    Keeps (plainLike names) fun v a => ∃ field, IsRecord names least v field ∧ P field a := by
  rintro v w a hv hw h ⟨field, hrecord, hsays⟩
  have hsame : (names.map fun name => (name, exactly)).map (·.1) = names := by
    rw [List.map_map]
    exact List.map_id' _
  obtain ⟨field', hrecord', hfields⟩ :=
    exists_fields_of_alike (by rwa [hsame]) h hv hw (hsame.symm ▸ hrecord)
  refine ⟨field', hsame ▸ hrecord', hP (fun name hname => ?_) hsays⟩
  exact (hfields (name, exactly) (List.mem_map_of_mem hname)).eq.symm

theorem Keeps.list (hs : Keeps s R) : Keeps (listLike s) (IsList R) := by
  rintro v w as hv hw (rfl | ⟨items, items', rfl, rfl, hall⟩) h
  · exact h
  · obtain ⟨_, ⟨⟩, hitems⟩ := h
    exact ⟨items', rfl, forall₂_keep (fun x hx y hy hxy a =>
      hs x y a (keyed_array.1 hv x hx) (keyed_array.1 hw y hy) hxy) hall hitems⟩

theorem IsDictionary.nodup {v : Json} {entries : List (String × α)} (h : IsDictionary R v entries)
    (hv : v.keyed = true) : (entries.map (·.1)).Nodup := by
  obtain ⟨members, rfl, hmembers⟩ := h
  exact nodup_names (keyed_object.1 hv).1 (hmembers.imp fun m e he => he.1)

/-- Alike tables have the same entries, but for their order. -/
theorem IsDictionary.exists_perm {v w : Json} {entries : List (String × α)} (hs : Keeps s R)
    (hv : v.keyed = true) (hw : w.keyed = true) (hvw : (tableLike s).r v w)
    (h : IsDictionary R v entries) :
    ∃ entries', entries.Perm entries' ∧ IsDictionary R w entries' := by
  obtain rfl | ⟨members, members', rfl, rfl, kept, hperm, hall⟩ := hvw
  · exact ⟨entries, .refl _, h⟩
  · obtain ⟨_, ⟨⟩, hmembers⟩ := h
    obtain ⟨entries', hkept, hperm'⟩ := List.perm_comp_forall₂ hperm.symm hmembers
    refine ⟨entries', hperm'.symm, members', rfl, forall₂_keep ?_ hall hkept⟩
    rintro ⟨key, v⟩ hm ⟨_, w⟩ hm' ⟨rfl, hvalue⟩ e ⟨hkey, he⟩
    exact ⟨hkey, hs v w _ ((keyed_object.1 hv).2 _ (hperm.mem_iff.2 hm))
      ((keyed_object.1 hw).2 _ hm') hvalue he⟩

theorem Omissible.exists_perm {entries : List (String × α)} (hs : Keeps s R)
    (hxy : FieldsAlike (tableLike s) x y) (h : Omissible (IsDictionary R) [] x entries) :
    (entries.map (·.1)).Nodup ∧
      ∃ entries', entries.Perm entries' ∧ Omissible (IsDictionary R) [] y entries' := by
  cases hxy with
  | none => exact ⟨by rw [show entries = [] from h]; exact List.nodup_nil, entries, .refl _, h⟩
  | some hvw => exact ⟨IsDictionary.nodup h hvw.1, h.exists_perm hs hvw.1 hvw.2.1 hvw.2.2⟩

/-- The order of a table does not count. -/
theorem tableLike_of_perm {ms ms' : List (String × Json)} (h : ms.Perm ms') :
    (tableLike s).r (.object ms) (.object ms') :=
  .inr ⟨ms, ms', rfl, rfl, inAnyOrder_of_perm _ h⟩

theorem dictionaryLike_of_inOrder {ms ms' : List (String × Json)}
    (h : (inOrder (memberLike fun _ => s)).r ms ms') :
    (dictionaryLike s).r (.object ms) (.object ms') := .inr ⟨ms, ms', rfl, rfl, h⟩

/-- What is alike to an object is an object. -/
theorem dictionaryLike_object {ms : List (String × Json)} {w : Json}
    (h : (dictionaryLike s).r (.object ms) w) :
    ∃ ms', w = .object ms' ∧ (inOrder (memberLike fun _ => s)).r ms ms' := by
  obtain rfl | ⟨_, ms', ⟨⟩, rfl, hall⟩ := h
  · exact ⟨ms, rfl, (inOrder _).refl ms⟩
  · exact ⟨ms', rfl, hall⟩

end Keeps

end Json

end GrammarExplorer
