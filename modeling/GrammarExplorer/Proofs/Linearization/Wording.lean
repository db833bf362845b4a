/-
Putting a function into words, and its linearizations in one label.

A function has a text for each of its linearizations, and the diagnostics of
all its sequences are listed once each (`firstSeen_diagnostics`); a single pass
over the linearizations comes to the same (`Pass.runAll_eq`). In the label a
text that occurs again is left out, wherever it stands (`label_append_congr`).
-/
import GrammarExplorer.Proofs.Diagnostic
import GrammarExplorer.Proofs.Linearization.Resolution

namespace GrammarExplorer.Linearization

/-! ## Linearizations -/

namespace Pass

/-- Goes on by one linearization of a function. -/
def nextLinearization (table : List (List Symbol)) (arguments : List String) (name : String)
    (p : Pass) (index : Nat) : Pass :=
  match table[index]? with
  | some symbols =>
    let found := run arguments symbols
    ⟨p.pieces ++ [" ".intercalate found.pieces], Diagnostic.noteAll p.diagnostics found.diagnostics,
      p.log ++ found.log⟩
  | none =>
    let warning := "function '" ++ name ++ "' points at missing sequence " ++ toString index
    { p.give "" with log := p.log ++ [⟨.warn, Log.linearizationTarget, warning⟩] }

/-- A pass over the linearizations of a function. -/
def runAll (table : List (List Symbol)) (arguments : List String) (f : ConcreteFunction) : Pass :=
  f.linearizations.foldl (nextLinearization table arguments f.name) start

end Pass

variable {table : List (List Symbol)} {arguments : List String}

theorem Pass.nextLinearization_eq (p : Pass) (name : String) (index : Nat) :
    p.nextLinearization table arguments name index =
      ⟨p.pieces ++ (wording ⟨name, [index]⟩ table arguments).texts,
        Diagnostic.noteAll p.diagnostics
          (((table[index]?).map (resolveDiagnostics · arguments)).getD []),
        p.log ++ wordingLog ⟨name, [index]⟩ table arguments⟩ := by
  cases h : table[index]? with
  | none => simp [nextLinearization, give, wording, wordingLog, h, Diagnostic.noteAll]
  | some symbols => simp [nextLinearization, wording, wordingLog, h, run_eq, resolve]

theorem diagnostics_wording_eq (f : ConcreteFunction) :
    (wording f table arguments).diagnostics
      = Diagnostic.noteAll [] (f.linearizations.flatMap fun index =>
          ((table[index]?).map (resolveDiagnostics · arguments)).getD []) := by
  simp only [wording]
  congr 2
  funext index
  cases table[index]? <;> rfl

theorem Pass.runAll_eq (table : List (List Symbol)) (arguments : List String)
    (f : ConcreteFunction) :
    runAll table arguments f = ⟨(wording f table arguments).texts,
      (wording f table arguments).diagnostics, wordingLog f table arguments⟩ := by
  obtain ⟨name, indices⟩ := f
  induction indices using List.reverseRecOn with
  | nil => rfl
  | append_singleton indices index ih =>
    rw [runAll] at ih ⊢
    rw [List.foldl_append, ih, List.foldl_cons, List.foldl_nil, nextLinearization_eq,
      diagnostics_wording_eq, diagnostics_wording_eq, List.flatMap_append, Diagnostic.noteAll_append]
    simp [wording, wordingLog]

/-- The sequences that a function points at, in the order of its
linearizations. -/
def sequencesOf (table : List (List Symbol)) (f : ConcreteFunction) : List (List Symbol) :=
  f.linearizations.filterMap (table[·]?)

theorem flatMap_sequencesOf {β : Type} (g : List Symbol → List β) (table : List (List Symbol))
    (f : ConcreteFunction) : (sequencesOf table f).flatMap g
      = f.linearizations.flatMap fun index => ((table[index]?).map g).getD [] := by
  rw [sequencesOf, List.filterMap_eq_flatMap_toList, List.flatMap_assoc]
  congr 1
  funext index
  cases table[index]? <;> simp

theorem firstSeen_diagnostics (table : List (List Symbol)) (arguments : List String)
    (f : ConcreteFunction) : FirstSeen (wording f table arguments).diagnostics
      ((sequencesOf table f).flatMap (resolveDiagnostics · arguments)) := by
  rw [diagnostics_wording_eq, Diagnostic.noteAll_nil, flatMap_sequencesOf]
  exact firstSeen_eraseDups _

theorem mem_diagnostics_wording {f : ConcreteFunction} {d : Diagnostic} :
    d ∈ (wording f table arguments).diagnostics ↔ ∃ index ∈ f.linearizations, ∃ symbols,
      table[index]? = some symbols ∧ d ∈ resolveDiagnostics symbols arguments := by
  rw [(firstSeen_diagnostics table arguments f).mem_iff, List.mem_flatMap]
  constructor
  · rintro ⟨symbols, hsymbols, hd⟩
    obtain ⟨index, hindex, hat⟩ := List.mem_filterMap.1 hsymbols
    exact ⟨index, hindex, symbols, hat, hd⟩
  · rintro ⟨index, hindex, symbols, hat, hd⟩
    exact ⟨symbols, List.mem_filterMap.2 ⟨index, hindex, hat⟩, hd⟩

theorem getElem?_texts {f : ConcreteFunction} {i index : Nat}
    (h : f.linearizations[i]? = some index) : (wording f table arguments).texts[i]?
      = some (((table[index]?).map (resolve · arguments)).getD "") := by
  rw [wording, List.getElem?_map, h, Option.map_some]
  cases table[index]? <;> rfl

/-! ## Labels -/

theorem label_eq {distinct texts : List String} (h : FirstSeen distinct texts)
    (separator : String) : label texts separator = separator.intercalate distinct := by
  rw [label, h.eq_eraseDups]

/-- Texts that occur before can be left out. -/
theorem label_append_congr {x y z : List String} (h : y.filter (· ∉ x) = z.filter (· ∉ x))
    (separator : String) : label (x ++ y) separator = label (x ++ z) separator := by
  rw [label, eraseDups_append_congr h, label]

theorem label_append_filter {x y : List String} {kept : String → Bool}
    (h : ∀ t ∈ y, kept t = false → t ∈ x) (separator : String) :
    label (x ++ y.filter kept) separator = label (x ++ y) separator := by
  refine label_append_congr ?_ separator
  rw [List.filter_filter]
  refine List.filter_congr fun t ht => ?_
  cases hkept : kept t with
  | true => simp
  | false => simp [h t ht hkept]

theorem label_append_cons {x : List String} {t : String} (h : t ∈ x) (y z : List String)
    (separator : String) : label (x ++ (y ++ t :: z)) separator = label (x ++ (y ++ z)) separator :=
  label_append_congr (by simp [h]) separator

/-- **The wording of a function and its label.** A function has a text for each
linearization, in their order: that of the sequence it points at, and an empty
one where it points outside the table. The diagnostics are those of the
sequences that are there, each once, where it is found first. One pass over the
linearizations comes to the same texts and diagnostics. The label of a list of
texts joins the different ones in the order of their first occurrence, also when
they are listed one by one; texts that occur before can be taken out, all of
them or a single one, and texts that are all different are joined as they
are. -/
theorem wording_and_label (f : ConcreteFunction) (table : List (List Symbol))
    (arguments : List String) :
    let w := wording f table arguments
    (w.texts.length = f.linearizations.length ∧
      ∀ i index : Nat, f.linearizations[i]? = some index →
        (∀ symbols, table[index]? = some symbols →
          w.texts[i]? = some (resolve symbols arguments)) ∧
        (table.length ≤ index → w.texts[i]? = some "")) ∧
    (w.diagnostics.Nodup ∧
      (∀ d, d ∈ w.diagnostics ↔ ∃ index ∈ f.linearizations, ∃ symbols,
        table[index]? = some symbols ∧ d ∈ resolveDiagnostics symbols arguments) ∧
      FirstSeen w.diagnostics
        ((sequencesOf table f).flatMap (resolveDiagnostics · arguments))) ∧
    (w.texts = (Pass.runAll table arguments f).pieces ∧
      w.diagnostics = (Pass.runAll table arguments f).diagnostics ∧
      wordingLog f table arguments = (Pass.runAll table arguments f).log) ∧
    ∀ separator,
      (∀ texts, FirstSeen (texts.foldl enlist []) texts ∧
        ∀ distinct, FirstSeen distinct texts →
          label texts separator = separator.intercalate distinct) ∧
      (∀ x y kept, (∀ t ∈ y, kept t = false → t ∈ x) →
        label (x ++ y.filter kept) separator = label (x ++ y) separator) ∧
      (∀ x t y z, t ∈ x → label (x ++ (y ++ t :: z)) separator = label (x ++ (y ++ z)) separator) ∧
      ∀ texts, texts.Nodup → label texts separator = separator.intercalate texts := by
  intro w
  have hseen := firstSeen_diagnostics table arguments f
  have htexts : ∀ i index : Nat, f.linearizations[i]? = some index →
      (∀ symbols, table[index]? = some symbols → w.texts[i]? = some (resolve symbols arguments)) ∧
      (table.length ≤ index → w.texts[i]? = some "") := by
    intro i index hi
    refine ⟨fun symbols hsymbols => ?_, fun hout => ?_⟩
    · rw [getElem?_texts hi, hsymbols]
      rfl
    · rw [getElem?_texts hi, List.getElem?_eq_none hout]
      rfl
  refine ⟨⟨by simp [w, wording], htexts⟩, ⟨hseen.nodup, fun d => mem_diagnostics_wording, hseen⟩,
    ?_, fun separator => ⟨fun texts => ⟨?_, fun distinct h => label_eq h separator⟩,
      fun x y kept h => label_append_filter h separator,
      fun x t y z h => label_append_cons h y z separator,
      fun texts h => label_eq (firstSeen_of_nodup h) separator⟩⟩
  · rw [Pass.runAll_eq]
    exact ⟨rfl, rfl, rfl⟩
  · rw [foldl_enlist]
    exact firstSeen_eraseDups texts

/-- A function that points twice at a sequence with a reference to a missing
argument, and once outside the table. -/
theorem wording_and_label_repeated :
    let w := wording ⟨"f", [1, 7, 0, 1]⟩ [[.literal "x", .category 4], [.category 4]] ["N"]
    w.texts = ["\x7b4\x7d", "", "x \x7b4\x7d", "\x7b4\x7d"] ∧
      w.diagnostics = [.outOfRangeSlot 4 1] ∧
      label w.texts " | " = label ["\x7b4\x7d", "", "x \x7b4\x7d"] " | " ∧
      label w.texts " | " = "\x7b4\x7d |  | x \x7b4\x7d" := by
  intro w
  have htexts : w.texts = ["\x7b4\x7d", "", "x \x7b4\x7d", "\x7b4\x7d"] := by decide +kernel
  obtain ⟨-, -, -, hlabel⟩ := wording_and_label ⟨"f", [1, 7, 0, 1]⟩
    [[.literal "x", .category 4], [.category 4]] ["N"]
  obtain ⟨-, -, hdelete, -⟩ := hlabel " | "
  refine ⟨htexts, by decide +kernel, ?_, by decide +kernel⟩
  rw [htexts]
  exact hdelete ["\x7b4\x7d", "", "x \x7b4\x7d"] "\x7b4\x7d" [] [] (by simp)

end GrammarExplorer.Linearization
