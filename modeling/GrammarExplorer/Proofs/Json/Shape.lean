/-
What values decoders accept, and what they make of them.

For every decoder there is a relation between JSON values and what they say,
put together like the decoder itself but without any order of reading:
`IsList`, `IsDictionary`, `IsRecord`. A decoder does what its relation says
(`Decodes`). Of the decoder of a record it has to be shown which part of the
draft is kept for which field (`RecordDecoder.HasParts`); that the fields are
then taken up rightly from an object as well as from a list, in whatever order,
holds for all records (`HasParts.decode_eq_ok_iff`).
-/
import GrammarExplorer.Json.Decode
import GrammarExplorer.Proofs.Json.Keyed
import Mathlib.Data.List.Nodup
import Mathlib.Data.List.Pairwise
import Mathlib.Logic.Function.Basic

namespace GrammarExplorer.Json

variable {α δ : Type}

/-! ## Shapes -/

def IsText (v : Json) (text : String) : Prop := v = .string text

def IsIndex (v : Json) (n : Nat) : Prop := v = .number (.integer n)

/-- An integer of 64 bits with sign. JSON has none that would be too low. -/
def IsInteger (v : Json) (i : Int) : Prop :=
  v = .number (.integer i) ∧ i < 0x8000000000000000

/-- Null stands for nothing. -/
def IsNullable (R : Json → α → Prop) (v : Json) : Option α → Prop
  | none => v = .null
  | some a => v ≠ .null ∧ R v a

/-- A list, item by item. -/
def IsList (R : Json → α → Prop) (v : Json) (as : List α) : Prop :=
  ∃ items, v = .array items ∧ List.Forall₂ R items as

/-- An object, member by member: its keys are whatever they are. -/
def IsDictionary (R : Json → α → Prop) (v : Json) (entries : List (String × α)) : Prop :=
  ∃ members, v = .object members ∧
    List.Forall₂ (fun m e => m.1 = e.1 ∧ R m.2 e.2) members entries

/-- A record, given by the values of its fields: an object, whose members of
other keys do not count, or a list of the fields in their order, the last ones
of which may be missing as long as `least` are there. -/
inductive IsRecord (names : List String) (least : Nat) : Json → (String → Option Json) → Prop
  | object (members : List (String × Json)) :
    IsRecord names least (.object members) (member? members)
  | list (items : List Json) (enough : least ≤ items.length) (fit : items.length ≤ names.length) :
    IsRecord names least (.array items) (member? (names.zip items))

/-- The fields of a record are as keyed as the record. -/
theorem IsRecord.keyed {names : List String} {least : Nat} {v : Json}
    {field : String → Option Json} (h : IsRecord names least v field) (hv : v.keyed = true)
    (key : String) (w : Json) (hw : field key = some w) : w.keyed = true := by
  cases h with
  | object members => exact keyed_of_member? hv hw
  | list items _ _ => exact keyed_array.1 hv w (List.of_mem_zip (mem_of_member? hw)).2

/-- A field that has to be there. -/
def Required (R : Json → α → Prop) (field : Option Json) (a : α) : Prop :=
  ∃ v, field = some v ∧ R v a

/-- A field that may be missing and then has a value of its own. -/
def Omissible (R : Json → α → Prop) (missing : α) : Option Json → α → Prop
  | none, a => a = missing
  | some v, a => R v a

/-! ## Decoders -/

/-- Whether a decoder accepts the values that say something, and makes that
of them. -/
def Decodes (decode : Decoder α) (R : Json → α → Prop) : Prop :=
  ∀ v a, v.keyed = true → (decode v = .ok a ↔ R v a)

theorem decodes_string : Decodes decodeString IsText := by
  intro v a _
  cases v <;> simp [decodeString, IsText, mismatch]

theorem decodes_index : Decodes decodeIndex IsIndex := by
  intro v n _
  unfold decodeIndex IsIndex
  split
  · next i =>
    split
    · simp only [Except.ok.injEq, number.injEq, JsonNumber.integer.injEq]
      omega
    · simp only [outOfRange, reduceCtorEq, number.injEq, JsonNumber.integer.injEq, false_iff]
      omega
  · next hno =>
    refine ⟨fun h => ?_, fun h => absurd h (hno _)⟩
    cases h

theorem decodes_integer : Decodes decodeInteger IsInteger := by
  intro v i _
  unfold decodeInteger IsInteger
  split
  · next j =>
    split
    · simp only [Except.ok.injEq, number.injEq, JsonNumber.integer.injEq]
      omega
    · simp only [outOfRange, reduceCtorEq, number.injEq, JsonNumber.integer.injEq, false_iff]
      omega
  · next hno =>
    refine ⟨fun h => ?_, fun h => absurd h.1 (hno _)⟩
    cases h

theorem decodes_any : Decodes decodeAny (· = ·) := fun v a _ => by
  rw [decodeAny, Except.ok.injEq]

variable {decode : Decoder α} {R : Json → α → Prop}

theorem Decodes.optional (h : Decodes decode R) :
    Decodes (decodeOptional decode) (IsNullable R) := by
  intro v a hv
  unfold decodeOptional
  split
  · cases a <;> simp [IsNullable]
  · next hne =>
    rw [map_eq_ok_iff]
    simp only [h v _ hv]
    cases a with
    | none => simpa [IsNullable] using hne
    | some a => simpa [IsNullable] using fun _ => hne

theorem forall₂_congr_left {α β : Type} {R S : α → β → Prop} {xs : List α} {ys : List β}
    (h : ∀ x ∈ xs, ∀ y, R x y ↔ S x y) : List.Forall₂ R xs ys ↔ List.Forall₂ S xs ys := by
  induction xs generalizing ys with
  | nil => simp
  | cons x xs ih =>
    have hrest : ∀ ys, List.Forall₂ R xs ys ↔ List.Forall₂ S xs ys := fun ys =>
      ih fun y hy => h y (List.mem_cons_of_mem _ hy)
    simp only [List.forall₂_cons_left_iff, h x List.mem_cons_self, hrest]

theorem exists_forall₂_iff {α β : Type} {R : α → β → Prop} {xs : List α} :
    (∃ ys, List.Forall₂ R xs ys) ↔ ∀ x ∈ xs, ∃ y, R x y := by
  induction xs with
  | nil => simp
  | cons x xs ih =>
    rw [List.forall_mem_cons, ← ih]
    constructor
    · rintro ⟨_, hall⟩
      cases hall with
      | cons hy hys => exact ⟨⟨_, hy⟩, ⟨_, hys⟩⟩
    · rintro ⟨⟨y, hy⟩, ⟨ys, hys⟩⟩
      exact ⟨y :: ys, .cons hy hys⟩

theorem forall₂_comp_iff {α β γ : Type} {R : α → β → Prop} {S : β → γ → Prop} {xs : List α}
    {zs : List γ} :
    List.Forall₂ (fun x z => ∃ y, R x y ∧ S y z) xs zs ↔
      ∃ ys, List.Forall₂ R xs ys ∧ List.Forall₂ S ys zs := by
  constructor
  · intro h
    induction h with
    | nil => exact ⟨[], .nil, .nil⟩
    | cons hxz _ ih =>
      obtain ⟨y, hxy, hyz⟩ := hxz
      obtain ⟨ys, hxs, hzs⟩ := ih
      exact ⟨y :: ys, .cons hxy hxs, .cons hyz hzs⟩
  · rintro ⟨ys, hxs, hzs⟩
    induction hxs generalizing zs with
    | nil =>
      cases hzs
      exact .nil
    | cons hxy _ ih =>
      cases hzs with
      | cons hyz hzs => exact .cons ⟨_, hxy, hyz⟩ (ih hzs)

theorem Decodes.list (h : Decodes decode R) : Decodes (decodeList decode) (IsList R) := by
  intro v as hv
  unfold decodeList IsList
  split
  · next items =>
    have hitems := keyed_array.1 hv
    rw [mapM_eq_ok_iff, forall₂_congr_left fun w hw a => h w a (hitems w hw)]
    simp
  · next hno =>
    refine ⟨fun hok => ?_, fun ⟨items, hitems, _⟩ => absurd hitems (hno items)⟩
    cases hok

theorem IsDictionary.forall_mem {v : Json} {entries : List (String × α)}
    (h : IsDictionary R v entries) : ∀ e ∈ entries, ∃ w, R w e.2 := by
  obtain ⟨members, -, hmembers⟩ := h
  have hentries : List.Forall₂ (fun e m => (∃ w, R w e.2) ∧ m.1 = e.1) entries members :=
    List.Forall₂.flip (hmembers.imp fun m e he => ⟨⟨m.2, he.2⟩, he.1⟩)
  exact ((List.forall₂_and_left entries members).1 hentries).1

theorem Decodes.dictionary (h : Decodes decode R) :
    Decodes (decodeDictionary decode) (IsDictionary R) := by
  intro v entries hv
  unfold decodeDictionary IsDictionary
  split
  · next members =>
    have hmembers := (keyed_object.1 hv).2
    have hmember : ∀ m ∈ members, ∀ e : String × α,
        (decode m.2).map (m.1, ·) = .ok e ↔ m.1 = e.1 ∧ R m.2 e.2 := by
      intro m hm e
      simp only [map_eq_ok_iff, h m.2 _ (hmembers m hm), Prod.ext_iff]
      constructor
      · rintro ⟨a, ha, hkey, rfl⟩
        exact ⟨hkey, ha⟩
      · exact fun ⟨hkey, ha⟩ => ⟨e.2, ha, hkey, rfl⟩
    rw [mapM_eq_ok_iff, forall₂_congr_left hmember]
    simp
  · next hno =>
    refine ⟨fun hok => ?_, fun ⟨members, hmembers, _⟩ => absurd hmembers (hno members)⟩
    cases hok

/-! ## Fields -/

/-- A field that has to be there is missing from a draft at first. -/
def mandatory (decode : Decoder α) : Decoder (Option α) := fun v => do return some (← decode v)

theorem omissible_iff (h : Decodes decode R) {value : Option Json}
    (hvalue : ∀ v, value = some v → v.keyed = true) (missing a : α) :
    Omissible (fun v a => decode v = .ok a) missing value a ↔ Omissible R missing value a := by
  cases value with
  | none => rfl
  | some v => exact h v a (hvalue v rfl)

theorem mandatory_iff (h : Decodes decode R) {value : Option Json}
    (hvalue : ∀ v, value = some v → v.keyed = true) (a : α) :
    Omissible (fun v a => mandatory decode v = .ok a) none value (some a) ↔ Required R value a := by
  cases value with
  | none => simp [Omissible, Required]
  | some v =>
    simp only [Omissible, mandatory, bind_ok_eq_map, map_eq_ok_iff, h v _ (hvalue v rfl)]
    simp [Required]

/-! ## Records -/

/-- The part of a draft that is kept for one field: how the field is decoded,
and what the part holds as long as the field is missing. -/
structure DraftPart (δ : Type) where
  name : String
  {Value : Type}
  decode : Decoder Value
  missing : Value
  get : δ → Value
  set : δ → Value → δ
  get_set : ∀ d c, get (set d c) = c := by intros; rfl
  set_get : ∀ d, set d (get d) = d := by intros; rfl
  set_set : ∀ d c c', set (set d c) c' = set d c' := by intros; rfl

namespace DraftPart

variable {p q : DraftPart δ}

/-- Whether the part holds what is made of a value of the field. -/
def Holds (p : DraftPart δ) (value : Option Json) (d : δ) : Prop :=
  Omissible (fun v c => p.decode v = .ok c) p.missing value (p.get d)

/-- Whether setting one of the parts leaves the other one as it is. -/
def Apart (p q : DraftPart δ) : Prop :=
  (∀ d c, q.get (p.set d c) = q.get d) ∧ ∀ d c, p.get (q.set d c) = p.get d

instance : Std.Symm (@Apart δ) := ⟨fun _ _ h => ⟨h.2, h.1⟩⟩

theorem Apart.holds_set (h : p.Apart q) {value : Option Json} {d : δ} {c : p.Value} :
    q.Holds value (p.set d c) ↔ q.Holds value d := by
  rw [Holds, Holds, h.1]

end DraftPart

/-- Whether every part of a draft holds what the fields say. -/
def Filled (parts : List (DraftPart δ)) (field : String → Option Json) (d : δ) : Prop :=
  ∀ p ∈ parts, p.Holds (field p.name) d

/-- A decoder that takes up each field of a record in a part of the draft, and
wants at least so many fields of a list. -/
structure RecordDecoder.HasParts (r : RecordDecoder δ α) (least : Nat)
    (parts : List (DraftPart δ)) : Prop where
  names_eq : r.fields.map (·.name) = parts.map (·.name)
  nodup : (parts.map (·.name)).Nodup
  missingAfter_eq_none : ∀ n ≤ parts.length, r.missingAfter n = none ↔ least ≤ n
  blank : ∀ d, (∀ p ∈ parts, p.get d = p.missing) ↔ d = r.blank
  put_eq : ∀ p ∈ parts, ∀ d v, r.put d p.name v = do return p.set d (← p.decode v)
  apart : parts.Pairwise DraftPart.Apart

/-- The values of the fields once these members are taken up as well. -/
def override (field : String → Option Json) (members : List (String × Json)) (key : String) :
    Option Json :=
  (member? members key).or (field key)

theorem override_none (members : List (String × Json)) :
    override (fun _ => none) members = member? members := by
  funext key
  exact Option.or_none

theorem member?_eq_none {members : List (String × Json)} {key : String}
    (h : key ∉ members.map (·.1)) : member? members key = none := by
  cases hv : member? members key with
  | none => rfl
  | some v => exact absurd (List.mem_map.2 ⟨_, mem_of_member? hv, rfl⟩) h

theorem override_cons {field : String → Option Json} {key : String} {v : Json}
    {rest : List (String × Json)} (h : key ∉ rest.map (·.1)) :
    override field ((key, v) :: rest) = override (Function.update field key (some v)) rest := by
  funext k
  unfold override
  rw [member?_cons]
  by_cases hk : key = k
  · subst hk
    rw [if_pos rfl, member?_eq_none h, Function.update_self, Option.some_or, Option.none_or]
  · rw [if_neg hk, Function.update_of_ne (Ne.symm hk)]

namespace RecordDecoder.HasParts

variable {r : RecordDecoder δ α} {least : Nat} {parts : List (DraftPart δ)} {p q : DraftPart δ}
  {field : String → Option Json} {d : δ}

theorem any_name_iff (h : r.HasParts least parts) (key : String) :
    r.fields.any (·.name == key) = true ↔ ∃ p ∈ parts, p.name = key := by
  rw [← List.mem_map, ← h.names_eq]
  simp

theorem length_fields (h : r.HasParts least parts) : r.fields.length = parts.length := by
  rw [← List.length_map (·.name), h.names_eq, List.length_map]

theorem apart_of_name_ne (h : r.HasParts least parts) (hp : p ∈ parts) (hq : q ∈ parts)
    (hne : q.name ≠ p.name) : p.Apart q :=
  h.apart.forall hp hq fun heq => hne (by rw [heq])

theorem eq_of_name_eq (h : r.HasParts least parts) (hp : p ∈ parts) (hq : q ∈ parts)
    (heq : q.name = p.name) : q = p :=
  List.inj_on_of_nodup_map h.nodup hq hp heq

/-- What taking up a field does to a draft. -/
theorem put_iff (h : r.HasParts least parts) (hp : p ∈ parts) (hfield : field p.name = none)
    (v : Json) :
    (∃ d', Filled parts field d' ∧ r.put d' p.name v = .ok d) ↔
      Filled parts (Function.update field p.name (some v)) d := by
  simp only [h.put_eq p hp, bind_ok_eq_map, map_eq_ok_iff]
  constructor
  · rintro ⟨d', hd', c, hc, rfl⟩ q hq
    by_cases hname : q.name = p.name
    · rw [h.eq_of_name_eq hp hq hname, Function.update_self]
      exact hc.trans (congrArg Except.ok (p.get_set d' c).symm)
    · rw [Function.update_of_ne hname, (h.apart_of_name_ne hp hq hname).holds_set]
      exact hd' q hq
  · intro hd
    have hv := hd p hp
    rw [Function.update_self] at hv
    refine ⟨p.set d p.missing, fun q hq => ?_, p.get d, hv, by rw [p.set_set, p.set_get]⟩
    by_cases hname : q.name = p.name
    · rw [h.eq_of_name_eq hp hq hname, hfield]
      exact p.get_set d p.missing
    · have hother := hd q hq
      rwa [Function.update_of_ne hname, ← (h.apart_of_name_ne hp hq hname).holds_set] at hother

/-- What any member does to a draft: one that is none of the fields does
nothing. -/
theorem putMember_iff (h : r.HasParts least parts) {key : String} (hfield : field key = none)
    (v : Json) :
    (∃ d', Filled parts field d' ∧
      (if r.fields.any (·.name == key) then r.put d' key v else .ok d') = .ok d) ↔
      Filled parts (Function.update field key (some v)) d := by
  by_cases hkey : ∃ p ∈ parts, p.name = key
  · obtain ⟨p, hp, rfl⟩ := hkey
    simp only [(h.any_name_iff p.name).2 ⟨p, hp, rfl⟩, if_true, h.put_iff hp hfield]
  · have hno : r.fields.any (·.name == key) = false :=
      Bool.eq_false_iff.2 fun hyes => hkey ((h.any_name_iff key).1 hyes)
    have hsame : Filled parts (Function.update field key (some v)) d ↔ Filled parts field d :=
      forall₂_congr fun p hp => by
        rw [Function.update_of_ne fun heq => hkey ⟨p, hp, heq⟩]
    simp [hno, hsame]

/-- What all members do, by induction on them. -/
theorem putMembers_iff (h : r.HasParts least parts) {members : List (String × Json)}
    (hkeys : (members.map (·.1)).Nodup) (hfield : ∀ m ∈ members, field m.1 = none) :
    (∃ d', Filled parts field d' ∧ r.putMembers d' members = .ok d) ↔
      Filled parts (override field members) d := by
  induction members generalizing field with
  | nil => simp [putMembers, show override field [] = field from rfl, pure, Except.pure]
  | cons m rest ih =>
    obtain ⟨key, v⟩ := m
    rw [List.map_cons, List.nodup_cons] at hkeys
    have hrest : ∀ m ∈ rest, Function.update field key (some v) m.1 = none := by
      intro m hm
      have hne : m.1 ≠ key := fun heq => hkeys.1 (heq ▸ List.mem_map.2 ⟨m, hm, rfl⟩)
      rw [Function.update_of_ne hne]
      exact hfield m (List.mem_cons_of_mem _ hm)
    have hcons : ∀ d', r.putMembers d' ((key, v) :: rest) =
        ((if r.fields.any (·.name == key) then r.put d' key v else .ok d') >>= fun d =>
          r.putMembers d rest) := fun d' => by
      rw [putMembers, List.foldlM_cons]
      rfl
    rw [override_cons hkeys.1, ← ih hkeys.2 hrest]
    simp only [hcons, bind_eq_ok_iff, ← h.putMember_iff (hfield _ List.mem_cons_self)]
    constructor
    · rintro ⟨d', hd', d₁, hd₁, hd⟩
      exact ⟨d₁, ⟨d', hd', hd₁⟩, hd⟩
    · rintro ⟨d₁, ⟨d', hd', hd₁⟩, hd⟩
      exact ⟨d', hd', d₁, hd₁, hd⟩

/-- A draft of a record whose fields have these values. -/
theorem putMembers_blank_iff (h : r.HasParts least parts) {members : List (String × Json)}
    (hkeys : (members.map (·.1)).Nodup) :
    r.putMembers r.blank members = .ok d ↔ Filled parts (member? members) d := by
  have hblank : ∀ d, Filled parts (fun _ => none) d ↔ d = r.blank := h.blank
  rw [← override_none, ← h.putMembers_iff hkeys (fun _ _ => rfl)]
  simp only [hblank, exists_eq_left]

/-- Only the members that belong to the record count. -/
theorem putMembers_eq (d : δ) (members : List (String × Json)) :
    r.putMembers d members = (members.filter fun m => r.fields.any (·.name == m.1)).foldlM
      (fun d m => r.put d m.1 m.2) d :=
  List.foldlM_filter.symm

/-- A list of the fields does what an object with these fields does. -/
theorem putItems_eq (h : r.HasParts least parts) (d : δ) (items : List Json) :
    r.putItems d items = r.putMembers d ((parts.map (·.name)).zip items) := by
  have hknown : ∀ m ∈ (parts.map (·.name)).zip items, r.fields.any (·.name == m.1) = true :=
    fun m hm => (h.any_name_iff m.1).2 (List.mem_map.1 (List.of_mem_zip hm).1)
  rw [putMembers_eq, List.filter_eq_self.2 hknown, ← h.names_eq, List.zip_map_left,
    List.foldlM_map]
  rfl

theorem nodup_zip (h : r.HasParts least parts) (items : List Json) :
    (((parts.map (·.name)).zip items).map (·.1)).Nodup := by
  rw [List.zip_eq_zip_take_min, List.map_fst_zip (by simp)]
  exact h.nodup.sublist (List.take_sublist _ _)

/-- **A record is what its fields are.** An object or a list is decoded as a
record when the values it has for the fields make a draft that can be finished;
in which order they stand does not matter. -/
theorem decode_eq_ok_iff (h : r.HasParts least parts) {v : Json} (hv : v.keyed = true) {a : α} :
    r.decode v = .ok a ↔
      ∃ field, IsRecord (parts.map (·.name)) least v field ∧
        ∃ d, Filled parts field d ∧ r.finish d = .ok a := by
  cases v with
  | object members =>
    simp only [decode, bind_eq_ok_iff, h.putMembers_blank_iff (keyed_object.1 hv).1]
    constructor
    · exact fun hd => ⟨_, .object members, hd⟩
    · rintro ⟨field, ⟨⟩, hd⟩
      exact hd
  | array items =>
    simp only [decode, bind_eq_ok_iff, h.putItems_eq, h.putMembers_blank_iff (h.nodup_zip items),
      h.length_fields]
    constructor
    · rintro ⟨d, hd, hrest⟩
      split at hrest
      · cases hrest
      · next hmissing =>
        obtain ⟨value, hvalue, hrest⟩ := exists_of_bind_eq_ok hrest
        split at hrest
        · cases hrest
        · next hfit =>
          cases hrest
          have hfit := Nat.not_lt.1 hfit
          have henough := (h.missingAfter_eq_none _ hfit).1 hmissing
          exact ⟨_, .list items henough (by rwa [List.length_map]), d, hd, hvalue⟩
    · rintro ⟨field, ⟨⟩, d, hd, hvalue⟩
      next henough hfit =>
        rw [List.length_map] at hfit
        refine ⟨d, hd, ?_⟩
        simp [(h.missingAfter_eq_none _ hfit).2 henough, hvalue, bind_eq_ok_iff, hfit]
  | null | bool _ | number _ | string _ =>
    constructor
    · intro hok
      cases hok
    · rintro ⟨field, ⟨⟩, _⟩

end RecordDecoder.HasParts

end GrammarExplorer.Json
