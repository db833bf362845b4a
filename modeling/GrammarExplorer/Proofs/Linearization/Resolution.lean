/-
Putting a sequence into words.

The text, the diagnostics and the warnings of a sequence can be had in one
pass, symbol by symbol (`run_eq`): every symbol gives one piece of text, and a
reference past the last argument a diagnostic and a warning beside it. So what
comes of two sequences in a row is what comes of each (`resolve_append`), and
more arguments change nothing for a sequence whose references are all to
arguments that are there (`resolve_append_arguments`).
-/
import GrammarExplorer.Linearization
import Mathlib.Data.List.Induction

namespace GrammarExplorer

namespace Symbol

/-- The argument that a symbol refers to, whether it is there or not. -/
def slot? : Symbol → Option Nat
  | category slot => some slot
  | literal _ | token _ => none

theorem missingSlot?_eq (arity : Nat) (symbol : Symbol) :
    symbol.missingSlot? arity = symbol.slot?.filter (arity ≤ ·) := by
  cases symbol with
  | literal t => rfl
  | token values => rfl
  | category slot =>
    by_cases h : slot < arity
    · simp [missingSlot?, slot?, Option.filter, h]
    · simp [missingSlot?, slot?, Option.filter, h, Nat.not_lt.1 h]

theorem slot?_eq_some_iff {symbol : Symbol} {slot : Nat} :
    symbol.slot? = some slot ↔ symbol = .category slot := by
  cases symbol <;> simp [slot?]

theorem missingSlot?_eq_some_iff {symbol : Symbol} {arity slot : Nat} :
    symbol.missingSlot? arity = some slot ↔ symbol = .category slot ∧ arity ≤ slot := by
  rw [missingSlot?_eq, Option.filter_eq_some_iff, slot?_eq_some_iff, decide_eq_true_iff]

end Symbol

namespace Linearization

/-- How far a pass over a sequence has come. -/
structure Pass where
  pieces : List String
  diagnostics : List Diagnostic
  log : List Log.Record

namespace Pass

/-- The beginning of a pass. -/
def start : Pass := ⟨[], [], []⟩

/-- Goes on by a piece of text that needs no remark. -/
def give (p : Pass) (piece : String) : Pass := { p with pieces := p.pieces ++ [piece] }

/-- Goes on by one symbol. -/
def next (arguments : List String) (p : Pass) : Symbol → Pass
  | .literal t => p.give t
  | .category slot =>
    match arguments[slot]? with
    | some name => p.give name
    | none =>
      let warning := "category reference " ++ toString slot ++ " out of range ("
        ++ toString arguments.length ++ " argument(s))"
      { p.give (Symbol.placeholder slot) with
        diagnostics := p.diagnostics ++ [.outOfRangeSlot slot arguments.length]
        log := p.log ++ [⟨.warn, Log.linearizationTarget, warning⟩] }
  | .token values => p.give (values.foldl (fun t v => t ++ Symbol.tokenText v) "")

/-- A pass over a whole sequence. -/
def run (arguments : List String) (symbols : List Symbol) : Pass :=
  symbols.foldl (next arguments) start

variable {arguments : List String}

theorem next_eq (p : Pass) (symbol : Symbol) : p.next arguments symbol =
    ⟨p.pieces ++ [symbol.text arguments], p.diagnostics ++ resolveDiagnostics [symbol] arguments,
      p.log ++ resolveLog [symbol] arguments⟩ := by
  simp only [resolveDiagnostics, resolveLog, missingSlots]
  cases symbol with
  | literal t => simp [next, give, Symbol.text, Symbol.missingSlot?]
  | token values =>
    simp [next, give, Symbol.text, Symbol.missingSlot?, String.join, List.foldl_map]
  | category slot =>
    by_cases h : slot < arguments.length
    · simp [next, give, Symbol.text, Symbol.missingSlot?, h]
    · simp [next, give, Symbol.text, Symbol.missingSlot?, h]

end Pass

/-! ## Sequences in a row -/

variable {s t : List Symbol}

theorem missingSlots_append (s t : List Symbol) (arity : Nat) :
    missingSlots (s ++ t) arity = missingSlots s arity ++ missingSlots t arity :=
  List.filterMap_append

theorem resolveDiagnostics_append (s t : List Symbol) (arguments : List String) :
    resolveDiagnostics (s ++ t) arguments
      = resolveDiagnostics s arguments ++ resolveDiagnostics t arguments := by
  rw [resolveDiagnostics, missingSlots_append, List.map_append]
  rfl

theorem resolveLog_append (s t : List Symbol) (arguments : List String) :
    resolveLog (s ++ t) arguments = resolveLog s arguments ++ resolveLog t arguments := by
  rw [resolveLog, missingSlots_append, List.map_append]
  rfl

theorem resolve_append (hs : s ≠ []) (ht : t ≠ []) (arguments : List String) :
    resolve (s ++ t) arguments = resolve s arguments ++ " " ++ resolve t arguments := by
  rw [resolve, List.map_append, String.intercalate_append_of_ne_nil (by simpa) (by simpa)]
  rfl

theorem Pass.run_eq (arguments : List String) (symbols : List Symbol) :
    run arguments symbols = ⟨symbols.map (·.text arguments), resolveDiagnostics symbols arguments,
      resolveLog symbols arguments⟩ := by
  induction symbols using List.reverseRecOn with
  | nil => rfl
  | append_singleton symbols symbol ih =>
    rw [run, List.foldl_append, List.foldl_cons, List.foldl_nil, next_eq, ← run, ih,
      resolveDiagnostics_append, resolveLog_append, List.map_append, List.map_singleton]

/-! ## References -/

/-- The arguments that a sequence refers to, in its order. -/
def references (symbols : List Symbol) : List Nat := symbols.filterMap (·.slot?)

theorem mem_references {slot : Nat} : slot ∈ references s ↔ .category slot ∈ s := by
  simp [references, Symbol.slot?_eq_some_iff]

theorem missingSlots_eq (symbols : List Symbol) (arity : Nat) :
    missingSlots symbols arity = (references symbols).filter (arity ≤ ·) := by
  rw [missingSlots, references, List.filter_filterMap]
  exact congrArg (List.filterMap · symbols) (funext fun symbol => symbol.missingSlot?_eq arity)

theorem resolveDiagnostics_eq_nil_iff {arguments : List String} :
    resolveDiagnostics s arguments = [] ↔ ∀ slot, .category slot ∈ s → slot < arguments.length := by
  rw [resolveDiagnostics, List.map_eq_nil_iff, missingSlots_eq, List.filter_eq_nil_iff]
  simp [mem_references]

theorem text_append_arguments {symbol : Symbol} {arguments : List String}
    (h : ∀ slot, symbol = .category slot → slot < arguments.length) (more : List String) :
    symbol.text (arguments ++ more) = symbol.text arguments := by
  cases symbol with
  | literal t => rfl
  | token values => rfl
  | category slot =>
    have hslot : slot < arguments.length := h slot rfl
    rw [Symbol.text, Symbol.text, List.getElem?_append_left hslot]

/-- Arguments behind those that are referred to change nothing. -/
theorem resolve_append_arguments {arguments : List String}
    (h : ∀ slot, .category slot ∈ s → slot < arguments.length) (more : List String) :
    resolve s (arguments ++ more) = resolve s arguments := by
  rw [resolve, resolve, List.map_congr_left]
  intro symbol hsymbol
  exact text_append_arguments (fun slot hslot => h slot (hslot ▸ hsymbol)) more

/-- **Putting a sequence into words.** The text of two sequences in a row, both
with symbols, is that of the one, a blank and that of the other; their
diagnostics follow one another. There are no diagnostics just if every
reference is to an argument that is there, and then further arguments change
neither that nor the text. In general there is one diagnostic for each
reference past the last argument, in the order of the references, with its
slot and the number of arguments. A single pass over the symbols comes to the
same text and the same diagnostics, and gives one warning with each of them. -/
theorem resolve_compositional (s t : List Symbol) (a b : List String) :
    ((s ≠ [] → t ≠ [] → resolve (s ++ t) a = resolve s a ++ " " ++ resolve t a) ∧
      resolveDiagnostics (s ++ t) a = resolveDiagnostics s a ++ resolveDiagnostics t a) ∧
    ((resolveDiagnostics s a = [] ↔ ∀ slot, .category slot ∈ s → slot < a.length) ∧
      ((∀ slot, .category slot ∈ s → slot < a.length) →
        resolve s (a ++ b) = resolve s a ∧ resolveDiagnostics s (a ++ b) = [])) ∧
    (resolveDiagnostics s a
      = ((references s).filter (a.length ≤ ·)).map fun slot => .outOfRangeSlot slot a.length) ∧
    (resolve s a = " ".intercalate (Pass.run a s).pieces ∧
      resolveDiagnostics s a = (Pass.run a s).diagnostics ∧
      resolveLog s a = (Pass.run a s).log) := by
  refine ⟨⟨fun hs ht => resolve_append hs ht a, resolveDiagnostics_append s t a⟩,
    ⟨resolveDiagnostics_eq_nil_iff, fun h => ⟨resolve_append_arguments h b, ?_⟩⟩, ?_, ?_⟩
  · refine resolveDiagnostics_eq_nil_iff.2 fun slot hslot => ?_
    rw [List.length_append]
    exact Nat.lt_add_right _ (h slot hslot)
  · rw [resolveDiagnostics, missingSlots_eq]
  · rw [Pass.run_eq]
    exact ⟨rfl, rfl, rfl⟩

/-- A sequence that starts with an empty text and refers to the last argument,
and a token of several values. -/
theorem resolve_compositional_token :
    let s : List Symbol := [.literal "", .category 1]
    let t : List Symbol := [.token [.string "4", .number (.integer 2), .null]]
    resolve (s ++ t) ["A", "B"] = resolve s ["A", "B"] ++ " " ++ resolve t ["A", "B"] ∧
      resolve (s ++ t) ["A", "B"] = " B 42" ∧
      resolve s ["A", "B", "C"] = resolve s ["A", "B"] ∧
      resolveDiagnostics s ["A", "B", "C"] = [] ∧
      resolve s ["A"] = " \x7b1\x7d" := by
  intro s t
  have hslots : ∀ slot, .category slot ∈ s → slot < ["A", "B"].length := by
    simp [s]
  obtain ⟨⟨happend, -⟩, ⟨-, hmore⟩, -⟩ := resolve_compositional s t ["A", "B"] ["C"]
  obtain ⟨htext, hnone⟩ := hmore hslots
  exact ⟨happend (by simp [s]) (by simp [t]), by decide +kernel, htext, hnone, by decide +kernel⟩

end Linearization

end GrammarExplorer
