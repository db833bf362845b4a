/-
JSON values in which no object has two members of one key.

The type of JSON values does not ask for this, but every value that is read
from a text is of that kind (`keyed_read`): a key that comes again takes the
place of the earlier one. For such values it does not matter whether one looks
for the first or for the last member of a key.
-/
import GrammarExplorer.Json.Reader
import GrammarExplorer.Proofs.Except

namespace GrammarExplorer.Json

mutual

/-- Whether no object in the value has two members of one key. -/
def keyed : Json → Bool
  | null | bool _ | number _ | string _ => true
  | array items => keyedItems items
  | object members => decide (members.map (·.1)).Nodup && keyedMembers members

def keyedItems : List Json → Bool
  | [] => true
  | v :: rest => keyed v && keyedItems rest

def keyedMembers : List (String × Json) → Bool
  | [] => true
  | (_, v) :: rest => keyed v && keyedMembers rest

end

theorem keyedItems_iff {items : List Json} :
    keyedItems items = true ↔ ∀ v ∈ items, v.keyed = true := by
  induction items with
  | nil => simp [keyedItems]
  | cons v rest ih => simp [keyedItems, ih]

theorem keyedMembers_iff {members : List (String × Json)} :
    keyedMembers members = true ↔ ∀ m ∈ members, m.2.keyed = true := by
  induction members with
  | nil => simp [keyedMembers]
  | cons m rest ih => simp [keyedMembers, ih]

theorem keyed_array {items : List Json} :
    (array items).keyed = true ↔ ∀ v ∈ items, v.keyed = true := by
  rw [keyed, keyedItems_iff]

theorem keyed_object {members : List (String × Json)} :
    (object members).keyed = true ↔
      (members.map (·.1)).Nodup ∧ ∀ m ∈ members, m.2.keyed = true := by
  rw [keyed, Bool.and_eq_true, decide_eq_true_eq, keyedMembers_iff]

/-! ## Members -/

theorem member?_cons (k key : String) (v : Json) (rest : List (String × Json)) :
    member? ((k, v) :: rest) key = if k = key then some v else member? rest key := by
  by_cases h : k = key
  · simp [member?, h]
  · simp [member?, h]

theorem mem_of_member? {members : List (String × Json)} {key : String} {v : Json}
    (h : member? members key = some v) : (key, v) ∈ members := by
  obtain ⟨m, hm, rfl⟩ := Option.map_eq_some_iff.1 h
  have hkey : m.1 = key := by simpa using List.find?_some hm
  rw [← hkey]
  exact List.mem_of_find?_eq_some hm

theorem keyed_of_member? {members : List (String × Json)} (h : (object members).keyed = true)
    {key : String} {v : Json} (hv : member? members key = some v) : v.keyed = true :=
  (keyed_object.1 h).2 _ (mem_of_member? hv)

/-- Things that are named by the keys they stand under have the names in the
order of the keys. -/
theorem map_names {β : Type} {members : List (String × Json)} {bs : List β} {name : β → String}
    (h : List.Forall₂ (fun m b => m.1 = name b) members bs) :
    members.map (·.1) = bs.map name := by
  rw [← List.forall₂_eq_eq_eq, List.forall₂_map_left_iff, List.forall₂_map_right_iff]
  exact h

/-- So no two have one name. -/
theorem nodup_names {β : Type} {members : List (String × Json)} {bs : List β} {name : β → String}
    (hkeys : (members.map (·.1)).Nodup)
    (h : List.Forall₂ (fun m b => m.1 = name b) members bs) : (bs.map name).Nodup :=
  map_names h ▸ hkeys

theorem setMember_new {members : List (String × Json)} {key : String}
    (h : key ∉ members.map (·.1)) (value : Json) :
    setMember members key value = members ++ [(key, value)] := by
  have hnone : members.any (·.1 == key) = false := by
    rw [List.any_eq_false]
    intro m hm hkey
    exact h (List.mem_map.2 ⟨m, hm, by simpa using hkey⟩)
  simp [setMember, hnone]

/-- Setting a member keeps the keys different. -/
theorem nodup_setMember {members : List (String × Json)} (h : (members.map (·.1)).Nodup)
    (key : String) (value : Json) : ((setMember members key value).map (·.1)).Nodup := by
  unfold setMember
  split
  · -- The key is there, and the keys stay what they are.
    have hkeys : ((members.map fun m => if m.1 == key then (key, value) else m).map (·.1))
        = members.map (·.1) := by
      rw [List.map_map]
      refine List.map_congr_left fun m _ => ?_
      by_cases hm : m.1 = key <;> simp [hm]
    rwa [hkeys]
  · next hnew =>
    rw [List.map_append, List.nodup_append]
    refine ⟨h, by simp, fun k hk k' hk' heq => hnew ?_⟩
    obtain ⟨m, hm, rfl⟩ := List.mem_map.1 hk
    refine List.any_eq_true.2 ⟨m, hm, ?_⟩
    simp only [List.map_cons, List.map_nil, List.mem_singleton] at hk'
    simp [heq, hk']

theorem snd_mem_setMember {members : List (String × Json)} {key : String} {value : Json}
    {m : String × Json} (h : m ∈ setMember members key value) :
    m.2 = value ∨ m ∈ members := by
  unfold setMember at h
  split at h
  · obtain ⟨e, he, rfl⟩ := List.mem_map.1 h
    by_cases hkey : e.1 = key
    · simp [hkey]
    · simp [hkey, he]
  · rcases List.mem_append.1 h with h | h
    · exact .inr h
    · rw [List.mem_singleton.1 h]
      exact .inl rfl

/-! ## Reading -/

/-- Whether a reading function gives values with different keys alone. -/
def GivesKeyed (item : List Char → Reading Json) : Prop :=
  ∀ s v rest, item s = .ok (v, rest) → v.keyed = true

/-- Items that were read are those from before, or one more was read. -/
theorem itemsPart_eq_ok {item : List Char → Reading Json} {first : Bool} {soFar items : List Json}
    {s rest : List Char} (h : itemsPart item first soFar s = .ok (items, rest)) :
    items = soFar.reverse ∨ ∃ start value rest', item start = .ok (value, rest') ∧
      rest'.length < s.length ∧ itemsPart item false (value :: soFar) rest' = .ok (items, rest) := by
  unfold itemsPart at h
  extract_lets next at h
  -- What follows the start of an item, wherever that is.
  have hnext : ∀ start, next start = .ok (items, rest) →
      ∃ start value rest', item start = .ok (value, rest') ∧ rest'.length < s.length ∧
        itemsPart item false (value :: soFar) rest' = .ok (items, rest) := by
    intro start hstart
    unfold next at hstart
    split at hstart
    · cases hstart
    · next value rest' hitem =>
      split at hstart
      · next hlt => exact ⟨start, value, rest', hitem, hlt, hstart⟩
      · cases hstart
  split at h
  · cases h
  · cases h
    exact .inl rfl
  · split at h
    · exact .inr (hnext _ h)
    · split at h
      · split at h
        · cases h
        · cases h
        · exact .inr (hnext _ h)
      · cases h

/-- Members that were read are those from before, or one more was set. -/
theorem membersPart_eq_ok {item : List Char → Reading Json} {first : Bool}
    {soFar members : List (String × Json)} {s rest : List Char}
    (h : membersPart item first soFar s = .ok (members, rest)) :
    members = soFar ∨ ∃ key start value rest', item start = .ok (value, rest') ∧
      rest'.length < s.length ∧
      membersPart item false (setMember soFar key value) rest' = .ok (members, rest) := by
  unfold membersPart at h
  extract_lets next at h
  have hnext : ∀ start, next start = .ok (members, rest) →
      ∃ key start value rest', item start = .ok (value, rest') ∧ rest'.length < s.length ∧
        membersPart item false (setMember soFar key value) rest' = .ok (members, rest) := by
    intro start hstart
    unfold next at hstart
    split at hstart
    · cases hstart
    · next key rest₁ _ =>
      split at hstart
      · cases hstart
      · next rest₂ _ =>
        split at hstart
        · cases hstart
        · next value rest' hitem =>
          split at hstart
          · next hlt => exact ⟨key, rest₂, value, rest', hitem, hlt, hstart⟩
          · cases hstart
      · cases hstart
  split at h
  · cases h
  · cases h
    exact .inl rfl
  · split at h
    · split at h
      · exact .inr (hnext _ h)
      · cases h
    · split at h
      · split at h
        · cases h
        · exact .inr (hnext _ h)
        · cases h
        · cases h
      · cases h

theorem keyed_itemsPart {item : List Char → Reading Json} (hitem : GivesKeyed item) {first : Bool}
    {soFar items : List Json} {s rest : List Char}
    (h : itemsPart item first soFar s = .ok (items, rest)) (hsoFar : ∀ v ∈ soFar, v.keyed = true) :
    ∀ v ∈ items, v.keyed = true := by
  induction hn : s.length using Nat.strongRecOn generalizing first soFar s with
  | ind n ih =>
    rcases itemsPart_eq_ok h with rfl | ⟨start, value, rest', hvalue, hlt, hrest⟩
    · exact fun v hv => hsoFar v (List.mem_reverse.1 hv)
    · refine ih _ (hn ▸ hlt) hrest (fun v hv => ?_) rfl
      rcases List.mem_cons.1 hv with rfl | hv
      · exact hitem _ _ _ hvalue
      · exact hsoFar v hv

theorem keyed_membersPart {item : List Char → Reading Json} (hitem : GivesKeyed item) {first : Bool}
    {soFar members : List (String × Json)} {s rest : List Char}
    (h : membersPart item first soFar s = .ok (members, rest))
    (hsoFar : (object soFar).keyed = true) : (object members).keyed = true := by
  induction hn : s.length using Nat.strongRecOn generalizing first soFar s with
  | ind n ih =>
    rcases membersPart_eq_ok h with rfl | ⟨key, start, value, rest', hvalue, hlt, hrest⟩
    · exact hsoFar
    · obtain ⟨hnodup, hvalues⟩ := keyed_object.1 hsoFar
      refine ih _ (hn ▸ hlt) hrest (keyed_object.2 ⟨nodup_setMember hnodup key value, ?_⟩) rfl
      intro m hm
      rcases snd_mem_setMember hm with hnew | hold
      · rw [hnew]
        exact hitem _ _ _ hvalue
      · exact hvalues m hold

theorem givesKeyed_valuePart (depth : Nat) : GivesKeyed (valuePart depth) := by
  induction depth using Nat.strongRecOn with
  | ind depth ih =>
    intro s v rest h
    unfold valuePart at h
    split at h
    case h_1 => cases h
    -- What is neither a list nor an object has no keys at all.
    case h_2 | h_3 | h_4 | h_5 | h_6 =>
      obtain ⟨p, -, hp⟩ := map_eq_ok_iff.1 h
      cases hp
      rfl
    case h_7 =>
      split at h
      · cases h
      · next depth =>
        obtain ⟨⟨items, rest'⟩, hitems, hp⟩ := map_eq_ok_iff.1 h
        cases hp
        have hitem := ih depth (Nat.lt_succ_self depth)
        exact keyed_array.2 (keyed_itemsPart hitem hitems fun v hv => absurd hv List.not_mem_nil)
    case h_8 =>
      split at h
      · cases h
      · next depth =>
        obtain ⟨⟨members, rest'⟩, hmembers, hp⟩ := map_eq_ok_iff.1 h
        cases hp
        have hitem := ih depth (Nat.lt_succ_self depth)
        exact keyed_membersPart hitem hmembers rfl
    case h_9 =>
      split at h
      · obtain ⟨p, -, hp⟩ := map_eq_ok_iff.1 h
        cases hp
        rfl
      · cases h

/-- **Reading gives every object different keys.** Whatever the text, no object
in the value that is read from it has two members of one key. -/
theorem keyed_read {text : String} {v : Json} (h : read text = .ok v) : v.keyed = true := by
  unfold read readChars at h
  cases hv : valuePart depthLimit text.toList with
  | error stop =>
    rw [hv] at h
    cases h
  | ok p =>
    have hkeyed : p.1.keyed = true := givesKeyed_valuePart depthLimit _ p.1 p.2 hv
    rw [hv] at h
    simp only at h
    split at h
    · cases h
      exact hkeyed
    · cases h

end GrammarExplorer.Json
