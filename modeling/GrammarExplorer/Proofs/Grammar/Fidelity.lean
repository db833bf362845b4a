/-
Nothing in the concrete grammars of a document is lost without a remark.

Every concrete grammar is made of the entry in its place (`Converts`). What
cannot be kept as it is, is odd (`ConcreteEntry.Odd`), and the diagnostics of
the grammar are all that is odd in any of the entries, each once.
-/
import GrammarExplorer.Proofs.Grammar.Acceptance
import GrammarExplorer.Proofs.Session.Diagnostics
import Mathlib.Data.List.TakeWhile

namespace GrammarExplorer

namespace Document

/-- What is worth a remark in an entry: a symbol of an unknown kind, which is
kept as a token, and a production without a function, which is left out. -/
inductive ConcreteEntry.Odd (e : ConcreteEntry) : Diagnostic → Prop
  | unknownSymbol (entries : List SymbolEntry) (s : SymbolEntry) (sequence : entries ∈ e.sequences)
    (symbol : s ∈ entries) (unknown : s.tag ∉ ["SymKS", "SymCat", "SymLit"]) :
    Odd e (.unknownSymbol s.tag)
  | productionWithoutFunction (category : String) (entries : List ProductionEntry)
    (p : ProductionEntry) (productions : (category, entries) ∈ e.productions)
    (production : p ∈ entries) (none : p.function = none) :
    Odd e (.productionWithoutFunction category p.tag)

theorem SymbolEntry.isKnown_iff {s : SymbolEntry} :
    s.isKnown = true ↔ s.tag ∈ ["SymKS", "SymCat", "SymLit"] := by
  simp [isKnown, or_assoc]

namespace ConcreteEntry

variable {id : String} {e : ConcreteEntry} {d : Diagnostic}

theorem isReadable_iff : e.isReadable = true ↔ e.Addressed := by
  simp only [isReadable, List.all_eq_true, SymbolEntry.isSome_symbol?_iff, Addressed]

/-- All symbols with the numbers of their sequences. -/
def numberedSymbols (e : ConcreteEntry) : List (Nat × SymbolEntry) :=
  e.sequences.zipIdx.flatMap fun s => s.1.map (s.2, ·)

theorem mem_numberedSymbols {s : Nat × SymbolEntry} :
    s ∈ e.numberedSymbols ↔ ∃ entries, e.sequences[s.1]? = some entries ∧ s.2 ∈ entries := by
  simp only [numberedSymbols, List.mem_flatMap, List.mem_map, Prod.exists,
    List.mk_mem_zipIdx_iff_getElem?]
  constructor
  · rintro ⟨entries, sequence, hentries, x, hx, rfl⟩
    exact ⟨entries, hentries, hx⟩
  · rintro ⟨entries, hentries, hs⟩
    exact ⟨entries, s.1, hentries, s.2, hs, rfl⟩

/-- With every reference saying to which argument, all symbols are read. -/
theorem readableSymbols_eq (h : e.Addressed) : e.readableSymbols = e.numberedSymbols := by
  refine List.takeWhile_eq_self_iff.2 fun s hs => ?_
  obtain ⟨entries, hentries, hs⟩ := mem_numberedSymbols.1 hs
  exact SymbolEntry.isSome_symbol?_iff.2 (h entries (List.mem_of_getElem? hentries) s.2 hs)

theorem mem_symbolNotices (h : e.Addressed) :
    (∃ n ∈ e.symbolNotices id, n.diagnostic = d) ↔
      ∃ entries ∈ e.sequences, ∃ s ∈ entries, s.tag ∉ ["SymKS", "SymCat", "SymLit"] ∧
        d = .unknownSymbol s.tag := by
  simp only [symbolNotices, readableSymbols_eq h, List.mem_map, List.mem_filter,
    mem_numberedSymbols, Bool.not_eq_true', ← Bool.not_eq_true, SymbolEntry.isKnown_iff]
  constructor
  · rintro ⟨_, ⟨⟨sequence, s⟩, ⟨⟨entries, hentries, hs⟩, hunknown⟩, rfl⟩, rfl⟩
    exact ⟨entries, List.mem_of_getElem? hentries, s, hs, hunknown, rfl⟩
  · rintro ⟨entries, hentries, s, hs, hunknown, rfl⟩
    obtain ⟨sequence, hsequence⟩ := List.mem_iff_getElem?.1 hentries
    exact ⟨_, ⟨(sequence, s), ⟨⟨entries, hsequence, hs⟩, hunknown⟩, rfl⟩, rfl⟩

theorem mem_productionNotices :
    (∃ n ∈ e.productionNotices id, n.diagnostic = d) ↔
      ∃ category entries, (category, entries) ∈ e.productions ∧
        ∃ p ∈ entries, p.function = none ∧ d = .productionWithoutFunction category p.tag := by
  simp only [productionNotices, List.mem_flatMap, List.mem_map, List.mem_filter, Prod.exists,
    Option.isNone_iff_eq_none]
  constructor
  · rintro ⟨_, ⟨category, entries, hentries, p, ⟨hp, hnone⟩, rfl⟩, rfl⟩
    exact ⟨category, entries, hentries, p, hp, hnone, rfl⟩
  · rintro ⟨category, entries, hentries, p, hp, hnone, rfl⟩
    exact ⟨_, ⟨category, entries, hentries, p, ⟨hp, hnone⟩, rfl⟩, rfl⟩

theorem mem_notices (h : e.Addressed) :
    d ∈ (e.notices id).map Notice.diagnostic ↔ e.Odd d := by
  rw [List.mem_map, notices, if_pos (isReadable_iff.2 h)]
  simp only [List.mem_append, or_and_right, exists_or, mem_symbolNotices h, mem_productionNotices]
  constructor
  · rintro (⟨entries, hentries, s, hs, hunknown, rfl⟩ |
      ⟨category, entries, hentries, p, hp, hnone, rfl⟩)
    · exact .unknownSymbol entries s hentries hs hunknown
    · exact .productionWithoutFunction category entries p hentries hp hnone
  · rintro (⟨entries, s, hentries, hs, hunknown⟩ | ⟨category, entries, p, hentries, hp, hnone⟩)
    · exact .inl ⟨entries, hentries, s, hs, hunknown, rfl⟩
    · exact .inr ⟨category, entries, hentries, p, hp, hnone, rfl⟩

end ConcreteEntry

theorem mem_diagnostics {entries : List (String × ConcreteEntry)}
    {parts : List (ConcreteGrammar × List Notice)} (h : List.Forall₂ IsPart entries parts)
    {d : Diagnostic} :
    (d ∈ parts.flatMap fun part => part.2.map Notice.diagnostic) ↔ ∃ e ∈ entries, e.2.Odd d := by
  induction h with
  | nil => simp
  | cons hpart _ ih =>
    obtain ⟨hc, hnotices⟩ := hpart
    have haddressed := ConcreteEntry.exists_concrete_iff.1 ⟨_, hc⟩
    rw [List.flatMap_cons, List.mem_append, ih, hnotices, ConcreteEntry.mem_notices haddressed,
      List.exists_mem_cons_iff]

end Document

open Document

/-- **Nothing in the concrete grammars of a document is lost without a remark.**
An accepted document has an entry for each of the concrete grammars, in their
order, and each is made of its entry. The diagnostics are what is odd in any of
the entries and nothing else, without repetition. -/
theorem Grammar.concretes_of_ofJson {document : Json} (h : document.keyed = true) {g : Grammar}
    (hg : ofJson document = .ok g) :
    ∃ entries, IsDocument document g.abstractGrammar entries ∧
      List.Forall₂ (fun e c => Converts e.1 e.2 c) entries g.concretes ∧
      g.diagnostics.Nodup ∧
      ∀ d, d ∈ g.diagnostics ↔ ∃ e ∈ entries, e.2.Odd d := by
  obtain ⟨entries, parts, hdocument, hparts, hconcretes, hdiagnostics⟩ :=
    (grammar_eq_ok_iff h).1 (document_of_ofJson hg)
  refine ⟨entries, hdocument, ?_, ?_, fun d => ?_⟩
  · rw [hconcretes, List.forall₂_map_right_iff]
    exact hparts.imp fun e part hpart => ConcreteEntry.converts_of_concrete hpart.1
  · rw [hdiagnostics]
    exact Diagnostic.nodup_noteAll List.nodup_nil _
  · rw [hdiagnostics, Diagnostic.mem_noteAll, mem_diagnostics hparts]
    simp

theorem Grammar.concretes_of_mixed :
    mixedDocument.keyed = true ∧ ∃ g, ofJson mixedDocument = .ok g ∧
      g.concreteIds = ["Eng", "Ger"] ∧
      g.concretes.map (·.sequences) = [
        [[.literal "Ann true"], [.category 0, .token [], .token []]],
        [[.token []], []]] ∧
      g.concretes.map (·.productions) = [[("S", [1]), ("NP", [0])], [("S", [])]] ∧
      g.diagnostics = [.unknownSymbol "SymVar", .productionWithoutFunction "S" "Coerce"] ∧
      ∃ entries, IsDocument mixedDocument g.abstractGrammar entries ∧
        List.Forall₂ (fun e c => Converts e.1 e.2 c) entries g.concretes ∧
        g.diagnostics.Nodup ∧
        ∀ d, d ∈ g.diagnostics ↔ ∃ e ∈ entries, e.2.Odd d :=
  ⟨by decide, _, rfl, rfl, rfl, rfl, by decide, concretes_of_ofJson (by decide) rfl⟩

end GrammarExplorer
