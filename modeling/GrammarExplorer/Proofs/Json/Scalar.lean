/-
Numbers and strings read back as they were written.

A number ends where something stands that cannot go on with it
(`ClosesNumber`); a string ends with its quote, and each of its characters comes
back from its escape (`stringPart_escapeChar`).
-/
import GrammarExplorer.Json.Printer
import GrammarExplorer.Json.Reader

namespace GrammarExplorer.Json

/-! ## Numbers -/

/-- Whether a number that stands before `rest` ends there. -/
def ClosesNumber (rest : List Char) : Prop :=
  ∀ c ∈ rest.head?, c.isDigit = false ∧ c ≠ '.' ∧ c ≠ 'e' ∧ c ≠ 'E'

theorem closesNumber_cons {c : Char} {rest : List Char} :
    ClosesNumber (c :: rest) ↔ c.isDigit = false ∧ c ≠ '.' ∧ c ≠ 'e' ∧ c ≠ 'E' := by
  simp [ClosesNumber]

theorem ClosesNumber.startsWithDigit {rest : List Char} (h : ClosesNumber rest) :
    startsWithDigit rest = false := by
  cases rest with
  | nil => rfl
  | cons c rest => exact (h c rfl).1

theorem ClosesNumber.takeWhile {rest : List Char} (h : ClosesNumber rest) :
    rest.takeWhile Char.isDigit = [] := by
  cases rest with
  | nil => rfl
  | cons c rest => exact List.takeWhile_cons_of_neg (by simp [(h c rfl).1])

theorem ClosesNumber.dropWhile {rest : List Char} (h : ClosesNumber rest) :
    rest.dropWhile Char.isDigit = rest := by
  cases rest with
  | nil => rfl
  | cons c rest => exact List.dropWhile_cons_of_neg (by simp [(h c rfl).1])

theorem le_ofDigitChars (digits : List Char) (n : Nat) : n ≤ Nat.ofDigitChars 10 digits n := by
  induction digits generalizing n with
  | nil => exact Nat.le_refl n
  | cons c digits ih =>
    rw [Nat.ofDigitChars_cons]
    have := ih (10 * n + (c.toNat - '0'.toNat))
    omega

/-- Digits are taken in whole if the number they make fits. -/
theorem absorbDigits_append {digits rest : List Char} {n count : Nat}
    (hdigits : ∀ c ∈ digits, c.isDigit = true) (hfits : Nat.ofDigitChars 10 digits n < wordLimit)
    (hrest : ClosesNumber rest) :
    absorbDigits n count (digits ++ rest) =
      (Nat.ofDigitChars 10 digits n, count + digits.length, rest) := by
  induction digits generalizing n count with
  | nil =>
    cases rest with
    | nil => rfl
    | cons c rest => simp [absorbDigits, (hrest c rfl).1, Nat.ofDigitChars]
  | cons c digits ih =>
    have hnext : n * 10 + digitValue c = 10 * n + (c.toNat - '0'.toNat) := by
      rw [digitValue]
      omega
    rw [Nat.ofDigitChars_cons, ← hnext] at hfits ⊢
    have hc : c.isDigit = true := hdigits c List.mem_cons_self
    have hlt : n * 10 + digitValue c < wordLimit := by
      have := le_ofDigitChars digits (n * 10 + digitValue c)
      omega
    have hmore : absorbDigits (n * 10 + digitValue c) (count + 1) (digits ++ rest) = _ :=
      ih (fun d hd => hdigits d (List.mem_cons_of_mem _ hd)) hfits
    simp only [List.cons_append, absorbDigits, hc, hlt, decide_true, Bool.and_self, if_true, hmore,
      List.length_cons]
    rw [Nat.add_assoc, Nat.add_comm 1]

/-- Only zero is written with a zero in front. -/
theorem head?_toDigits {n : Nat} (h : 0 < n) : (Nat.toDigits 10 n).head? ≠ some '0' := by
  induction n using Nat.strongRecOn with
  | ind n ih =>
    rw [Nat.toDigits_eq_if (by decide)]
    split
    · next hlt =>
      have hall : ∀ d < 10, 0 < d → Nat.digitChar d ≠ '0' := by decide
      simpa using hall n hlt h
    · have hfront := ih (n / 10) (by omega) (by omega)
      rw [List.head?_append]
      cases hhead : (Nat.toDigits 10 (n / 10)).head? with
      | none => exact absurd (List.head?_eq_none_iff.1 hhead) Nat.toDigits_ne_nil
      | some c => rwa [hhead] at hfront

/-- A number is an integer if nothing follows its first digits. -/
theorem numberPart_of_closes {positive : Bool} {c : Char} {tail rest : List Char} {n count : Nat}
    (hc : c.isDigit = true) (hzero : c = '0' → startsWithDigit tail = false)
    (htaken : (if c == '0' then (0, 0, tail) else absorbDigits (digitValue c) 0 tail) =
      (n, count, rest)) (hrest : ClosesNumber rest) :
    numberPart positive (c :: tail) = .ok (integerOf positive n, rest) := by
  have hfirst : (c == '0' && startsWithDigit tail) = false := by
    by_cases h : c = '0'
    · simp [hzero h]
    · simp [h]
  simp only [numberPart, hfirst, hc, htaken, hrest.takeWhile, hrest.dropWhile, if_true,
    Bool.false_eq_true, if_false, List.isEmpty_nil]
  split
  · exact absurd rfl (hrest '.' rfl).2.1
  · exact absurd rfl (hrest 'e' rfl).2.2.1
  · exact absurd rfl (hrest 'E' rfl).2.2.2
  · rfl

theorem numberPart_toDigits (positive : Bool) {n : Nat} (hn : n < wordLimit) {rest : List Char}
    (hrest : ClosesNumber rest) :
    numberPart positive (Nat.toDigits 10 n ++ rest) = .ok (integerOf positive n, rest) := by
  have hall : ∀ c ∈ Nat.toDigits 10 n, c.isDigit = true :=
    fun c hc => Nat.isDigit_of_mem_toDigits (by decide) (by decide) hc
  have hvalue : Nat.ofDigitChars 10 (Nat.toDigits 10 n) 0 = n := Nat.ofDigitChars_ten_toDigits
  cases hdigits : Nat.toDigits 10 n with
  | nil => exact absurd hdigits Nat.toDigits_ne_nil
  | cons c digits =>
    rw [hdigits] at hall hvalue
    have hc : c.isDigit = true := hall c List.mem_cons_self
    by_cases h0 : n = 0
    · rw [h0, Nat.toDigits_zero, List.cons.injEq] at hdigits
      obtain ⟨rfl, rfl⟩ := hdigits
      exact h0 ▸ numberPart_of_closes hc (fun _ => hrest.startsWithDigit) rfl hrest
    · have hne : c ≠ '0' := by
        have hhead := head?_toDigits (Nat.pos_of_ne_zero h0)
        simpa [hdigits] using hhead
      rw [Nat.ofDigitChars_cons, Nat.mul_zero, Nat.zero_add, ← digitValue] at hvalue
      have htaken : absorbDigits (digitValue c) 0 (digits ++ rest) =
          (n, 0 + digits.length, rest) := by
        rw [absorbDigits_append (fun d hd => hall d (List.mem_cons_of_mem c hd)) (by rwa [hvalue])
          hrest, hvalue]
      exact numberPart_of_closes hc (fun h => absurd h hne) (by simpa [hne] using htaken) hrest

theorem integerOf_of_nonneg {i : Int} (h : 0 ≤ i) : integerOf true i.toNat = .integer i := by
  rw [integerOf, if_pos rfl, Int.toNat_of_nonneg h]

theorem integerOf_of_neg {i : Int} (h : i < 0) (hlow : -0x8000000000000000 ≤ i) :
    integerOf false (-i).toNat = .integer i := by
  have hne : (-i).toNat ≠ 0 := by omega
  have hle : ¬0x8000000000000000 < (-i).toNat := by omega
  have hvalue : -((-i).toNat : Int) = i := by omega
  rw [integerOf, if_neg (by decide), if_neg (by simp [hne, hle]), hvalue]

theorem toList_integer (i : Int) :
    (numberText (.integer i)).toList =
      if 0 ≤ i then Nat.toDigits 10 i.toNat else '-' :: Nat.toDigits 10 (-i).toNat := by
  rw [numberText, Int.toString_eq_repr, Int.repr_eq_if]
  split
  · exact Nat.toList_repr
  · rw [String.toList_append, Nat.toList_repr]
    rfl

theorem exists_digit_cons (n : Nat) :
    ∃ c digits, Nat.toDigits 10 n = c :: digits ∧ c.isDigit = true := by
  cases h : Nat.toDigits 10 n with
  | nil => exact absurd h Nat.toDigits_ne_nil
  | cons c digits =>
    have hc : c ∈ Nat.toDigits 10 n := h ▸ List.mem_cons_self
    exact ⟨c, digits, rfl, Nat.isDigit_of_mem_toDigits (by decide) (by decide) hc⟩

/-! ## Strings -/

theorem hexValue?_digitChar : ∀ d < 16, hexValue? (Nat.digitChar d) = some d := by decide

theorem utf8Size_digitChar : ∀ d < 16, (Nat.digitChar d).utf8Size = 1 := by decide

/-- The code of a control is read from its two digits. -/
theorem hexFour_hexPair {n : Nat} (hn : n < 256) (rest : List Char) :
    hexFour ('0' :: '0' :: (hexPair n ++ rest)) = .ok n := by
  have hhigh := hexValue?_digitChar (n / 16) (by omega)
  have hlow := hexValue?_digitChar (n % 16) (by omega)
  have hhighSize := utf8Size_digitChar (n / 16) (by omega)
  have hlowSize := utf8Size_digitChar (n % 16) (by omega)
  have hzero : hexValue? '0' = some 0 := rfl
  have hzeroSize : '0'.utf8Size = 1 := rfl
  have hsum : n / 16 * 16 + n % 16 = n := Nat.div_add_mod' n 16
  simp [hexFour, hexPair, byteCount, hhigh, hlow, hhighSize, hlowSize, hzero, hzeroSize, hsum]

theorem escape_control {c : Char} (h : c.toNat < 0x20) (rest : List Char) :
    escape ('u' :: '0' :: '0' :: (hexPair c.toNat ++ rest)) = .ok (c, 5) := by
  have hnotLow : ¬(0xDC00 ≤ c.toNat ∧ c.toNat ≤ 0xDFFF) := by omega
  have hnotHigh : c.toNat < 0xD800 := by omega
  have hunit : unicodeEscape ('0' :: '0' :: (hexPair c.toNat ++ rest)) = .ok (c, 4) := by
    rw [unicodeEscape, hexFour_hexPair (by omega)]
    simp [bind, Except.bind, hnotLow, hnotHigh]
  rw [escape, hunit]
  rfl

/-- A character is written as a letter behind a backslash, as the number of a
control, or as itself. -/
theorem escapeChar_cases (c : Char) :
    (∃ letter, escapeChar c = ['\\', letter] ∧ ∀ rest, escape (letter :: rest) = .ok (c, 1)) ∨
      (c.toNat < 0x20 ∧ escapeChar c = ['\\', 'u', '0', '0'] ++ hexPair c.toNat) ∨
      (¬c.toNat < 0x20 ∧ c ≠ '"' ∧ c ≠ '\\' ∧ escapeChar c = [c]) := by
  by_cases hletter : c ∈ ['"', '\\', '\n', '\r', '\t', '\x08', '\x0c']
  · left
    simp only [List.mem_cons, List.not_mem_nil, or_false] at hletter
    rcases hletter with rfl | rfl | rfl | rfl | rfl | rfl | rfl <;> exact ⟨_, rfl, fun _ => rfl⟩
  · right
    simp only [List.mem_cons, List.not_mem_nil, or_false, not_or] at hletter
    obtain ⟨hquote, hbackslash, hnewline, hreturn, htab, hbackspace, hfeed⟩ := hletter
    by_cases hcontrol : c.toNat < 0x20
    · exact .inl ⟨hcontrol, by simp [escapeChar, *]⟩
    · exact .inr ⟨hcontrol, hquote, hbackslash, by simp [escapeChar, *]⟩

theorem stringPart_escape {soFar text : List Char} {c : Char} {taken : Nat}
    (h : escape text = .ok (c, taken)) :
    stringPart soFar ('\\' :: text) = stringPart (c :: soFar) (text.drop taken) := by
  rw [stringPart, h]

/-- Each character comes back from what it is written as. -/
theorem stringPart_escapeChar (soFar : List Char) (c : Char) (rest : List Char) :
    stringPart soFar (escapeChar c ++ rest) = stringPart (c :: soFar) rest := by
  rcases escapeChar_cases c with ⟨letter, htext, hescape⟩ | ⟨hcontrol, htext⟩ |
    ⟨hplain, hquote, hbackslash, htext⟩
  · rw [htext]
    exact stringPart_escape (hescape rest)
  · rw [htext]
    exact stringPart_escape (escape_control hcontrol rest)
  · rw [htext, List.singleton_append, stringPart]
    · rw [if_neg hplain]
    · exact fun h => hquote h
    · exact fun h => hbackslash h

theorem stringPart_escaped (soFar cs rest : List Char) :
    stringPart soFar (cs.flatMap escapeChar ++ '"' :: rest) =
      .ok (String.ofList (soFar.reverse ++ cs), rest) := by
  induction cs generalizing soFar with
  | nil => simp [stringPart]
  | cons c cs ih =>
    rw [List.flatMap_cons, List.append_assoc, stringPart_escapeChar, ih, List.reverse_cons,
      List.append_assoc, List.singleton_append]

theorem toList_stringText (s : String) :
    (stringText s).toList = '"' :: (s.toList.flatMap escapeChar ++ ['"']) := by
  rw [stringText, String.toList_ofList, List.cons_append]

theorem stringPart_stringText (s : String) (rest : List Char) :
    stringPart [] (s.toList.flatMap escapeChar ++ '"' :: rest) = .ok (s, rest) := by
  rw [stringPart_escaped, List.reverse_nil, List.nil_append, String.ofList_toList]

end GrammarExplorer.Json
