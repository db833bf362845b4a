/-
A value that is laid out on lines is read back as it was.

`Legible depth v` says what this takes: integers that fit 64 bits, no floating
point numbers, different keys in every object, and no more than `depth` lists
and objects in one another. The lemmas about lists and objects go the way the
reader goes, from behind the bracket, with one of them for the first item, one
for an item behind a comma and one for the end.
-/
import GrammarExplorer.Proofs.Json.Keyed
import GrammarExplorer.Proofs.Json.Scalar

namespace GrammarExplorer.Json

/-- Whether a value can be read back where `depth` lists and objects may lie
in one another. -/
inductive Legible : Nat → Json → Prop
  | null {depth : Nat} : Legible depth null
  | bool {depth : Nat} (b : Bool) : Legible depth (bool b)
  | integer {depth : Nat} {i : Int} (hlow : -0x8000000000000000 ≤ i) (hhigh : i < wordLimit) :
    Legible depth (number (.integer i))
  | string {depth : Nat} (s : String) : Legible depth (string s)
  | array {depth : Nat} {items : List Json} (hitems : ∀ v ∈ items, Legible depth v) :
    Legible (depth + 1) (array items)
  | object {depth : Nat} {members : List (String × Json)} (hkeys : (members.map (·.1)).Nodup)
    (hmembers : ∀ m ∈ members, Legible depth m.2) : Legible (depth + 1) (object members)

/-! ## Blanks -/

/-- Whether there is nothing to read. -/
def Blank (s : List Char) : Prop := ∀ c ∈ s, isBlank c = true

theorem blank_nil : Blank [] := fun _ h => absurd h List.not_mem_nil

theorem blank_lineStart (level : Nat) : Blank (lineStart level).toList := by
  intro c hc
  simp only [lineStart, String.toList_append, String.toList_ofList, List.mem_append,
    List.mem_replicate] at hc
  rcases hc with hnewline | ⟨-, rfl⟩
  · have : c = '\n' := by simpa using hnewline
    rw [this]
    rfl
  · rfl

theorem skipBlanks_append {blanks : List Char} (hblanks : Blank blanks) {c : Char}
    (hc : isBlank c = false) (rest : List Char) : skipBlanks (blanks ++ c :: rest) = c :: rest := by
  rw [skipBlanks, List.dropWhile_append_of_pos hblanks, List.dropWhile_cons_of_neg (by simp [hc])]

theorem isBlank_iff {c : Char} :
    isBlank c = true ↔ c = ' ' ∨ c = '\n' ∨ c = '\t' ∨ c = '\r' := by
  simp [isBlank, or_assoc]

theorem isBlank_digit {c : Char} (h : c.isDigit = true) : isBlank c = false := by
  rw [Bool.eq_false_iff]
  intro hblank
  rcases isBlank_iff.1 hblank with rfl | rfl | rfl | rfl <;> exact absurd h (by decide)

/-- A number ends before blanks and before whatever can end a number. -/
theorem Blank.closesNumber {blanks : List Char} (hblanks : Blank blanks) {rest : List Char}
    (hrest : ClosesNumber rest) : ClosesNumber (blanks ++ rest) := by
  cases blanks with
  | nil => exact hrest
  | cons b blanks =>
    rw [List.cons_append, closesNumber_cons]
    rcases isBlank_iff.1 (hblanks b List.mem_cons_self) with rfl | rfl | rfl | rfl <;> decide

/-! ## Lists -/

section

variable {item : List Char → Reading Json}

theorem itemsPart_end {first : Bool} {soFar : List Json} {blanks : List Char}
    (hblanks : Blank blanks) (rest : List Char) :
    itemsPart item first soFar (blanks ++ ']' :: rest) = .ok (soFar.reverse, rest) := by
  rw [itemsPart, skipBlanks_append hblanks (by decide)]
  rfl

/-- Whether a text starts with something that can be an item. -/
def StartsItem (s : List Char) : Prop := ∃ c text, s = c :: text ∧ isBlank c = false ∧ c ≠ ']'

theorem StartsItem.append {s : List Char} (h : StartsItem s) (rest : List Char) :
    StartsItem (s ++ rest) := by
  obtain ⟨c, text, rfl, hc⟩ := h
  exact ⟨c, text ++ rest, rfl, hc⟩

theorem StartsItem.length_lt {s : List Char} (h : StartsItem s) (rest : List Char) :
    rest.length < (s ++ rest).length := by
  obtain ⟨c, text, rfl, -⟩ := h
  rw [List.length_append, List.length_cons]
  omega

theorem itemsPart_first {soFar : List Json} {blanks : List Char} (hblanks : Blank blanks)
    {start rest : List Char} {v : Json} (hstart : StartsItem start)
    (hitem : item start = .ok (v, rest)) (hlength : rest.length < start.length) :
    itemsPart item true soFar (blanks ++ start) = itemsPart item false (v :: soFar) rest := by
  have hlt : rest.length < (blanks ++ start).length := by
    rw [List.length_append]
    omega
  obtain ⟨c, text, rfl, hc, hne⟩ := hstart
  rw [itemsPart, skipBlanks_append hblanks hc]
  simp only [hitem, hlt, if_true]

theorem itemsPart_next {soFar : List Json} {blanks : List Char} (hblanks : Blank blanks)
    {start rest : List Char} {v : Json} (hstart : StartsItem start)
    (hitem : item start = .ok (v, rest)) (hlength : rest.length < start.length) :
    itemsPart item false soFar (',' :: (blanks ++ start)) =
      itemsPart item false (v :: soFar) rest := by
  have hlt : rest.length < (',' :: (blanks ++ start)).length := by
    rw [List.length_cons, List.length_append]
    omega
  obtain ⟨c, text, rfl, hc, hne⟩ := hstart
  have hcomma : skipBlanks (',' :: (blanks ++ c :: text)) = ',' :: (blanks ++ c :: text) := rfl
  rw [itemsPart, hcomma]
  split
  · next heq => cases heq
  · next heq => simp at heq
  · next heq =>
    cases heq
    simp only [Bool.false_eq_true, if_false, beq_self_eq_true, if_true,
      skipBlanks_append hblanks hc]
    split
    · next heq => cases heq
    · next heq => exact absurd (List.cons.inj heq).1 hne
    · simp only [hitem, hlt, if_true]

/-! ## Objects -/

theorem membersPart_end {first : Bool} {soFar : List (String × Json)} {blanks : List Char}
    (hblanks : Blank blanks) (rest : List Char) :
    membersPart item first soFar (blanks ++ '\x7d' :: rest) = .ok (soFar, rest) := by
  rw [membersPart, skipBlanks_append hblanks (by decide)]
  rfl

/-- A member as it is written, its value given by its text. -/
def memberChars (key : String) (text : List Char) : List Char :=
  (stringText key).toList ++ ':' :: text

theorem exists_memberChars (key : String) (text : List Char) :
    ∃ body, memberChars key text = '"' :: body ∧ stringPart [] body = .ok (key, ':' :: text) := by
  refine ⟨key.toList.flatMap escapeChar ++ '"' :: ':' :: text, ?_, stringPart_stringText key _⟩
  simp [memberChars, toList_stringText]

theorem membersPart_first {soFar : List (String × Json)} {blanks : List Char}
    (hblanks : Blank blanks) (key : String) {text rest : List Char} {v : Json}
    (hitem : item text = .ok (v, rest)) (hlength : rest.length ≤ text.length) :
    membersPart item true soFar (blanks ++ memberChars key text) =
      membersPart item false (setMember soFar key v) rest := by
  have hlt : rest.length < (blanks ++ memberChars key text).length := by
    simp only [memberChars, List.length_append, List.length_cons]
    omega
  have hcolon : skipBlanks (':' :: text) = ':' :: text := rfl
  obtain ⟨body, hbody, hkey⟩ := exists_memberChars key text
  rw [hbody] at hlt ⊢
  rw [membersPart, skipBlanks_append hblanks (by decide)]
  split
  · next heq => cases heq
  · next heq => simp at heq
  · next heq =>
    cases heq
    simp only [if_true, beq_self_eq_true, hkey, hcolon, hitem, hlt]

theorem membersPart_next {soFar : List (String × Json)} {blanks : List Char}
    (hblanks : Blank blanks) (key : String) {text rest : List Char} {v : Json}
    (hitem : item text = .ok (v, rest)) (hlength : rest.length ≤ text.length) :
    membersPart item false soFar (',' :: (blanks ++ memberChars key text)) =
      membersPart item false (setMember soFar key v) rest := by
  have hlt : rest.length < (',' :: (blanks ++ memberChars key text)).length := by
    simp only [memberChars, List.length_append, List.length_cons]
    omega
  have hcolon : skipBlanks (':' :: text) = ':' :: text := rfl
  obtain ⟨body, hbody, hkey⟩ := exists_memberChars key text
  rw [hbody] at hlt ⊢
  have hcomma : skipBlanks (',' :: (blanks ++ '"' :: body)) = ',' :: (blanks ++ '"' :: body) := rfl
  rw [membersPart, hcomma]
  split
  · next heq => cases heq
  · next heq => simp at heq
  · next heq =>
    cases heq
    simp only [Bool.false_eq_true, if_false, beq_self_eq_true, if_true,
      skipBlanks_append hblanks (c := '"') rfl, hkey, hcolon, hitem, hlt]

end

/-! ## What is laid out -/

/-- A member as it is laid out. -/
def memberText (level : Nat) (m : String × Json) : String :=
  stringText m.1 ++ ": " ++ m.2.laidOut level

theorem toList_memberText (level : Nat) (m : String × Json) (more : List Char) :
    (memberText level m).toList ++ more =
      memberChars m.1 (' ' :: ((m.2.laidOut level).toList ++ more)) := by
  simp [memberText, memberChars]

theorem laidOutItems_eq_map (level : Nat) (items : List Json) :
    laidOutItems level items = items.map (laidOut level) := by
  induction items with
  | nil => rfl
  | cons v items ih => rw [laidOutItems, ih, List.map_cons]

theorem laidOutMembers_eq_map (level : Nat) (members : List (String × Json)) :
    laidOutMembers level members = members.map (memberText level) := by
  induction members with
  | nil => rfl
  | cons m members ih => rw [laidOutMembers, ih, List.map_cons, memberText]

/-- What follows the first of the items between two brackets: every further one
behind a comma and the start of its line, then what closes. -/
def further {α : Type} (inner : List Char) (write : α → List Char) (items : List α)
    (closing : List Char) : List Char :=
  (items.flatMap fun v => ',' :: (inner ++ write v)) ++ closing

section

variable {α : Type} (inner : List Char) (write : α → List Char)

theorem further_nil (closing : List Char) : further inner write [] closing = closing := rfl

theorem further_cons (v : α) (items : List α) (closing : List Char) :
    further inner write (v :: items) closing =
      ',' :: (inner ++ (write v ++ further inner write items closing)) := by
  simp [further]

/-- A number ends before a comma and before the line of a closing bracket. -/
theorem closesNumber_further (items : List α) {outer closing : List Char} (houter : Blank outer)
    (hclosing : ClosesNumber closing) :
    ClosesNumber (further inner write items (outer ++ closing)) := by
  cases items with
  | nil => exact houter.closesNumber hclosing
  | cons v items =>
    rw [further_cons, closesNumber_cons]
    decide

end

theorem toList_intercalate_cons (sep first : String) (texts : List String) :
    (sep.intercalate (first :: texts)).toList =
      first.toList ++ texts.flatMap fun t => sep.toList ++ t.toList := by
  induction texts generalizing first with
  | nil => simp
  | cons second texts ih =>
    rw [String.intercalate_cons_cons, String.toList_append, ih]
    simp

section

variable {opening closing : String} {o e : Char} (hopening : opening.toList = [o])
  (hclosing : closing.toList = [e]) (level : Nat)

include hopening hclosing

theorem bracketed_nil_append (rest : List Char) :
    (bracketed opening closing level []).toList ++ rest = o :: e :: rest := by
  simp [bracketed, hopening, hclosing]

theorem bracketed_cons_append {α : Type} (write : α → String) (v : α) (items : List α)
    (rest : List Char) :
    (bracketed opening closing level ((v :: items).map write)).toList ++ rest =
      o :: ((lineStart (level + 1)).toList ++ ((write v).toList ++
        further (lineStart (level + 1)).toList (fun w => (write w).toList) items
          ((lineStart level).toList ++ e :: rest))) := by
  simp only [bracketed, List.map_cons, String.toList_append, toList_intercalate_cons, further,
    hopening, hclosing]
  simp [List.flatMap_map]

end

/-! ## Values -/

/-- Whether a value that is laid out at a level is read back, whatever comes
behind it that ends a number. -/
def ReadsBack (depth level : Nat) (v : Json) : Prop :=
  ∀ rest : List Char, ClosesNumber rest →
    valuePart depth ((v.laidOut level).toList ++ rest) = .ok (v, rest)

theorem toList_laidOut_null (level : Nat) : (laidOut level null).toList = ['n', 'u', 'l', 'l'] := by
  simp [laidOut]

theorem toList_laidOut_bool (level : Nat) (b : Bool) :
    (laidOut level (bool b)).toList =
      if b then ['t', 'r', 'u', 'e'] else ['f', 'a', 'l', 's', 'e'] := by
  cases b <;> simp [laidOut]

theorem startsItem_digit {c : Char} (h : c.isDigit = true) (text : List Char) :
    StartsItem (c :: text) := by
  refine ⟨c, text, rfl, isBlank_digit h, fun hc => ?_⟩
  rw [hc] at h
  exact absurd h (by decide)

theorem startsItem_bracketed {opening closing : String} {o e : Char}
    (hopening : opening.toList = [o]) (hclosing : closing.toList = [e])
    (ho : isBlank o = false ∧ o ≠ ']') (level : Nat) (texts : List String) :
    StartsItem (bracketed opening closing level texts).toList := by
  rw [← List.append_nil (bracketed opening closing level texts).toList]
  cases texts with
  | nil => exact ⟨o, _, bracketed_nil_append hopening hclosing level [], ho⟩
  | cons first texts =>
    have htext := bracketed_cons_append hopening hclosing level id first texts []
    rw [List.map_id] at htext
    exact ⟨o, _, htext, ho⟩

theorem Legible.startsItem {depth : Nat} {v : Json} (h : Legible depth v) (level : Nat) :
    StartsItem (v.laidOut level).toList := by
  cases h with
  | null => exact ⟨'n', _, toList_laidOut_null level, by decide⟩
  | bool b =>
    rw [toList_laidOut_bool]
    cases b with
    | true => exact ⟨'t', _, rfl, by decide⟩
    | false => exact ⟨'f', _, rfl, by decide⟩
  | @integer _ i _ _ =>
    rw [laidOut, toList_integer]
    split
    · obtain ⟨c, digits, hdigits, hc⟩ := exists_digit_cons i.toNat
      exact hdigits ▸ startsItem_digit hc digits
    · exact ⟨'-', _, rfl, by decide⟩
  | string s => exact ⟨'"', _, toList_stringText s, by decide⟩
  | array _ => exact startsItem_bracketed rfl rfl (by decide) level _
  | object _ _ => exact startsItem_bracketed rfl rfl (by decide) level _

theorem valuePart_blank (depth : Nat) (s : List Char) :
    valuePart depth (' ' :: s) = valuePart depth s := by
  have hskip : skipBlanks (' ' :: s) = skipBlanks s := rfl
  unfold valuePart
  rw [hskip]

section

variable {depth level : Nat} {inner outer : List Char}

/-- The items behind the first, to the end of the list. -/
theorem itemsPart_further {items : List Json} (hlegible : ∀ v ∈ items, Legible depth v)
    (hback : ∀ v ∈ items, ReadsBack depth level v) (hinner : Blank inner) (houter : Blank outer)
    (soFar : List Json) (rest : List Char) :
    itemsPart (valuePart depth) false soFar
        (further inner (fun v => (v.laidOut level).toList) items (outer ++ ']' :: rest)) =
      .ok (soFar.reverse ++ items, rest) := by
  induction items generalizing soFar with
  | nil => rw [further_nil, itemsPart_end houter, List.append_nil]
  | cons v items ih =>
    have hmore := ih (fun w hw => hlegible w (List.mem_cons_of_mem v hw))
      (fun w hw => hback w (List.mem_cons_of_mem v hw)) (v :: soFar)
    have hclosing : ClosesNumber (']' :: rest) := closesNumber_cons.2 (by decide)
    have hv := hback v List.mem_cons_self _ (closesNumber_further inner
      (fun w : Json => (w.laidOut level).toList) items houter hclosing)
    have hstart := (hlegible v List.mem_cons_self).startsItem level
    rw [further_cons, itemsPart_next hinner (hstart.append _) hv (hstart.length_lt _), hmore]
    simp

/-- A member whose value is read back is read up to what follows it. -/
theorem ReadsBack.member {v : Json} (h : ReadsBack depth level v) {more : List Char}
    (hmore : ClosesNumber more) :
    valuePart depth (' ' :: ((v.laidOut level).toList ++ more)) = .ok (v, more) ∧
      more.length ≤ (' ' :: ((v.laidOut level).toList ++ more)).length := by
  refine ⟨(valuePart_blank _ _).trans (h more hmore), ?_⟩
  rw [List.length_cons, List.length_append]
  omega

/-- The members behind the first, to the end of the object. -/
theorem membersPart_further {members : List (String × Json)}
    (hback : ∀ m ∈ members, ReadsBack depth level m.2) (hinner : Blank inner) (houter : Blank outer)
    (soFar : List (String × Json)) (hkeys : ((soFar ++ members).map (·.1)).Nodup)
    (rest : List Char) :
    membersPart (valuePart depth) false soFar
        (further inner (fun m => (memberText level m).toList) members (outer ++ '\x7d' :: rest)) =
      .ok (soFar ++ members, rest) := by
  induction members generalizing soFar with
  | nil => rw [further_nil, membersPart_end houter, List.append_nil]
  | cons m members ih =>
    have hnew : m.1 ∉ soFar.map (·.1) := by
      rw [List.map_append, List.nodup_append] at hkeys
      exact fun hmem => hkeys.2.2 m.1 hmem m.1 List.mem_cons_self rfl
    have hmore := ih (fun w hw => hback w (List.mem_cons_of_mem _ hw)) (soFar ++ [m])
      (by simpa using hkeys)
    have hclosing : ClosesNumber ('\x7d' :: rest) := closesNumber_cons.2 (by decide)
    obtain ⟨hv, hlength⟩ := (hback m List.mem_cons_self).member
      (closesNumber_further inner (fun w => (memberText level w).toList) members houter hclosing)
    rw [further_cons, toList_memberText, membersPart_next hinner m.1 hv hlength, setMember_new hnew,
      hmore, List.append_assoc, List.singleton_append]

end

section

variable {depth level : Nat}

theorem valuePart_array (text : List Char) :
    valuePart (depth + 1) ('[' :: text) =
      (itemsPart (valuePart depth) true [] text).map fun (items, rest) => (.array items, rest) := by
  rw [valuePart]
  rfl

theorem valuePart_object (text : List Char) :
    valuePart (depth + 1) ('\x7b' :: text) =
      (membersPart (valuePart depth) true [] text).map
        fun (members, rest) => (.object members, rest) := by
  rw [valuePart]
  rfl

theorem valuePart_digit {c : Char} (h : c.isDigit = true) (text : List Char) :
    valuePart depth (c :: text) =
      (numberPart true (c :: text)).map fun (n, rest) => (.number n, rest) := by
  have hskip : skipBlanks (c :: text) = c :: text :=
    List.dropWhile_cons_of_neg (by simp [isBlank_digit h])
  rw [valuePart, hskip]
  split
  case h_1 heq => cases heq
  case h_9 heq =>
    cases heq
    rw [if_pos h]
  -- Every other case names a first character that is no digit.
  all_goals
    next heq =>
      rw [(List.cons.inj heq).1] at h
      exact absurd h (by decide)

theorem readsBack_integer {i : Int} (hlow : -0x8000000000000000 ≤ i) (hhigh : i < wordLimit) :
    ReadsBack depth level (number (.integer i)) := by
  intro rest hrest
  rw [laidOut, toList_integer]
  have hlimit : wordLimit = 0x10000000000000000 := rfl
  split
  · next hpos =>
    have hread := numberPart_toDigits true (n := i.toNat) (by omega) hrest
    obtain ⟨c, digits, hdigits, hc⟩ := exists_digit_cons i.toNat
    rw [hdigits, List.cons_append] at hread ⊢
    rw [valuePart_digit hc, hread, integerOf_of_nonneg hpos]
    rfl
  · next hneg =>
    have hread := numberPart_toDigits false (n := (-i).toNat) (by omega) hrest
    have hskip : skipBlanks ('-' :: (Nat.toDigits 10 (-i).toNat ++ rest)) =
      '-' :: (Nat.toDigits 10 (-i).toNat ++ rest) := rfl
    rw [List.cons_append, valuePart, hskip]
    simp only [hread, integerOf_of_neg (Int.not_le.1 hneg) hlow]
    rfl

theorem readsBack_string (s : String) : ReadsBack depth level (string s) := by
  intro rest _
  have hskip : skipBlanks ('"' :: (s.toList.flatMap escapeChar ++ '"' :: rest)) =
    '"' :: (s.toList.flatMap escapeChar ++ '"' :: rest) := rfl
  rw [laidOut, toList_stringText, List.cons_append, List.append_assoc, List.singleton_append,
    valuePart, hskip]
  simp only [stringPart_stringText]
  rfl

theorem readsBack_array {items : List Json} (hlegible : ∀ v ∈ items, Legible depth v)
    (hback : ∀ v ∈ items, ReadsBack depth (level + 1) v) :
    ReadsBack (depth + 1) level (array items) := by
  intro rest _
  have hopening : "[".toList = ['['] := rfl
  have hbracket : "]".toList = [']'] := rfl
  rw [laidOut, laidOutItems_eq_map]
  cases items with
  | nil =>
    have hend : itemsPart (valuePart depth) true [] (']' :: rest) = .ok ([], rest) :=
      itemsPart_end blank_nil rest
    rw [List.map_nil, bracketed_nil_append hopening hbracket, valuePart_array, hend]
    rfl
  | cons v items =>
    have hinner := blank_lineStart (level + 1)
    have houter := blank_lineStart level
    have hclosing : ClosesNumber (']' :: rest) := closesNumber_cons.2 (by decide)
    have hv := hback v List.mem_cons_self _ (closesNumber_further (lineStart (level + 1)).toList
      (fun w : Json => (w.laidOut (level + 1)).toList) items houter hclosing)
    have hstart := (hlegible v List.mem_cons_self).startsItem (level + 1)
    have hfirst : itemsPart (valuePart depth) true [] _ = _ :=
      itemsPart_first hinner (hstart.append _) hv (hstart.length_lt _)
    have hmore := itemsPart_further (fun w hw => hlegible w (List.mem_cons_of_mem v hw))
      (fun w hw => hback w (List.mem_cons_of_mem v hw)) hinner houter [v] rest
    rw [bracketed_cons_append hopening hbracket, valuePart_array, hfirst, hmore]
    rfl

theorem readsBack_object {members : List (String × Json)} (hkeys : (members.map (·.1)).Nodup)
    (hback : ∀ m ∈ members, ReadsBack depth (level + 1) m.2) :
    ReadsBack (depth + 1) level (object members) := by
  intro rest _
  have hopening : "\x7b".toList = ['\x7b'] := rfl
  have hbracket : "\x7d".toList = ['\x7d'] := rfl
  rw [laidOut, laidOutMembers_eq_map]
  cases members with
  | nil =>
    have hend : membersPart (valuePart depth) true [] ('\x7d' :: rest) = .ok ([], rest) :=
      membersPart_end blank_nil rest
    rw [List.map_nil, bracketed_nil_append hopening hbracket, valuePart_object, hend]
    rfl
  | cons m members =>
    have hinner := blank_lineStart (level + 1)
    have houter := blank_lineStart level
    have hclosing : ClosesNumber ('\x7d' :: rest) := closesNumber_cons.2 (by decide)
    obtain ⟨hv, hlength⟩ := (hback m List.mem_cons_self).member
      (closesNumber_further (lineStart (level + 1)).toList
        (fun w => (memberText (level + 1) w).toList) members houter hclosing)
    have hfirst : membersPart (valuePart depth) true [] _ = membersPart _ false [m] _ :=
      membersPart_first hinner m.1 hv hlength
    have hmore := membersPart_further (fun w hw => hback w (List.mem_cons_of_mem m hw)) hinner
      houter [m] hkeys rest
    rw [bracketed_cons_append hopening hbracket, valuePart_object, toList_memberText, hfirst, hmore]
    rfl

end

/-- By induction on the value, the text behind it being left open. -/
theorem Legible.readsBack {depth : Nat} {v : Json} (h : Legible depth v) (level : Nat) :
    ReadsBack depth level v := by
  induction h generalizing level with
  | null =>
    intro rest _
    rw [toList_laidOut_null, valuePart]
    rfl
  | bool b =>
    intro rest _
    rw [toList_laidOut_bool, valuePart]
    cases b <;> rfl
  | integer hlow hhigh => exact readsBack_integer hlow hhigh
  | string s => exact readsBack_string s
  | array hitems ih => exact readsBack_array hitems fun v hv => ih v hv (level + 1)
  | object hkeys _ ih => exact readsBack_object hkeys fun m hm => ih m hm (level + 1)

/-- **What is laid out is read back**, with the end of the last line behind it. -/
theorem read_laidOut {v : Json} (h : Legible depthLimit v) :
    read (v.laidOut 0 ++ "\n") = .ok v := by
  have hend : ClosesNumber ['\n'] := closesNumber_cons.2 (by decide)
  have hchars : readChars (v.laidOut 0 ++ "\n").toList = .ok v := by
    have htext : (v.laidOut 0 ++ "\n").toList = (v.laidOut 0).toList ++ ['\n'] :=
      String.toList_append
    rw [readChars, htext, h.readsBack 0 ['\n'] hend]
    rfl
  rw [read, hchars]
  rfl

end GrammarExplorer.Json
