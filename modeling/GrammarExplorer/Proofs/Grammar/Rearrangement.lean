/-
Documents that say the same in another order, or with more words.

What counts in a document is `documentLike`. A document says what all documents
say that are alike to it, except that the tables of its concrete grammars may
stand in another order (`IsDocument.exists_rearranged`), and in tables without
double keys one finds the same wherever it stands. So the grammars have the
same answers (`Converts.agrees`).

Where fields are taken out of the objects of a document, what is left changes
its order at once. As there is one member of a key at most, the fields that are
still to be taken are found all the same (`member?_takeMember`).
-/
import GrammarExplorer.Grammar.Removal
import GrammarExplorer.Proofs.Grammar.Fidelity
import GrammarExplorer.Proofs.Json.Alike

namespace GrammarExplorer

open Json

namespace Document

/-! ## What counts in a document -/

def functionLike : Setoid Json := plainLike ["cat", "args"]

def flagsLike : Setoid Json := plainLike ["language"]

def productionLike : Setoid Json := plainLike ["type", "fid"]

def concreteFunctionLike : Setoid Json := plainLike ["name", "lins"]

def symbolLike : Setoid Json := plainLike ["type", "args"]

def rangeLike : Setoid Json := plainLike ["start", "end"]

/-- In a concrete grammar the order of the categories does not count either. -/
def concreteLike : Setoid Json := recordLike [
  ("flags", flagsLike),
  ("productions", tableLike (listLike productionLike)),
  ("functions", listLike concreteFunctionLike),
  ("sequences", listLike (listLike symbolLike)),
  ("categories", tableLike rangeLike),
  ("totalfids", exactly)]

def abstractLike : Setoid Json := recordLike [
  ("name", exactly),
  ("startcat", exactly),
  ("funs", dictionaryLike functionLike)]

/-- The order of the functions and that of the concrete grammars count. -/
def documentLike : Setoid Json := recordLike [
  ("abstract", abstractLike),
  ("concretes", dictionaryLike concreteLike)]

/-! ## Parts of a document -/

theorem keeps_function : Keeps functionLike IsFunction :=
  keeps_plain (by decide) fun hsame h => by simpa [hsame] using h

theorem keeps_flags : Keeps flagsLike IsFlags :=
  keeps_plain (by decide) fun hsame h => by simpa [hsame] using h

theorem keeps_production : Keeps productionLike IsProduction :=
  keeps_plain (by decide) fun hsame h => by simpa [hsame] using h

theorem keeps_concreteFunction : Keeps concreteFunctionLike IsConcreteFunction :=
  keeps_plain (by decide) fun hsame h => by simpa [hsame] using h

theorem keeps_symbol : Keeps symbolLike IsSymbol :=
  keeps_plain (by decide) fun hsame h => by simpa [hsame] using h

theorem keeps_range : Keeps rangeLike IsRange :=
  keeps_plain (by decide) fun hsame h => by simpa [hsame] using h

theorem keeps_declarations : Keeps (dictionaryLike functionLike) IsDeclarations := by
  rintro v w fs hv hw hvw ⟨members, rfl, hmembers⟩
  obtain ⟨members', rfl, hall⟩ := dictionaryLike_object hvw
  refine ⟨members', rfl, forall₂_keep ?_ hall hmembers⟩
  rintro ⟨name, v⟩ hm ⟨_, w⟩ hm' ⟨rfl, hvalue⟩ f ⟨hname, hf⟩
  exact ⟨hname, keeps_function v w _ ((keyed_object.1 hv).2 _ hm) ((keyed_object.1 hw).2 _ hm')
    hvalue hf⟩

theorem keeps_abstract : Keeps abstractLike IsAbstract := by
  rintro v w g hv hw hvw ⟨fields, name, rfl, htold, hname, hstart, hfuns⟩
  obtain ⟨fields', rfl, hfields⟩ := exists_members_of_alike (by decide) hvw hv hw
  simp only [List.forall_mem_cons] at hfields
  obtain ⟨hname', hstart', hfuns', -⟩ := hfields
  exact ⟨fields', name, rfl, htold.keep keeps_exactly hname', hname,
    hstart.keep keeps_exactly hstart', hfuns.keep keeps_declarations hfuns'⟩

/-! ## Concrete grammars -/

/-- Entries with the same tables, but for the order of the categories. No
category is there twice. -/
structure ConcreteEntry.Rearranged (e e' : ConcreteEntry) : Prop where
  flags_eq : e'.flags = e.flags
  productions : e.productions.Perm e'.productions
  nodup_productions : (e.productions.map (·.1)).Nodup
  functions_eq : e'.functions = e.functions
  sequences_eq : e'.sequences = e.sequences
  ranges : e.ranges.Perm e'.ranges
  nodup_ranges : (e.ranges.map (·.1)).Nodup
  totalFids_eq : e'.totalFids = e.totalFids

namespace ConcreteEntry.Rearranged

variable {e e' : ConcreteEntry} (h : e.Rearranged e')

include h

theorem addressed (haddressed : e.Addressed) : e'.Addressed := by
  rw [Addressed, h.sequences_eq]
  exact haddressed

/-- The same things are odd. -/
theorem odd_iff {d : Diagnostic} : e'.Odd d ↔ e.Odd d := by
  constructor
  · rintro (⟨entries, s, hentries, hs, hunknown⟩ | ⟨category, entries, p, hentries, hp, hnone⟩)
    · exact .unknownSymbol entries s (h.sequences_eq ▸ hentries) hs hunknown
    · exact .productionWithoutFunction category entries p (h.productions.mem_iff.2 hentries) hp
        hnone
  · rintro (⟨entries, s, hentries, hs, hunknown⟩ | ⟨category, entries, p, hentries, hp, hnone⟩)
    · exact .unknownSymbol entries s (h.sequences_eq.symm ▸ hentries) hs hunknown
    · exact .productionWithoutFunction category entries p (h.productions.mem_iff.1 hentries) hp
        hnone

end ConcreteEntry.Rearranged

theorem IsConcrete.exists_rearranged {v w : Json} {e : ConcreteEntry} (hv : v.keyed = true)
    (hw : w.keyed = true) (hvw : concreteLike.r v w) (h : IsConcrete v e) :
    ∃ e', e.Rearranged e' ∧ IsConcrete w e' := by
  obtain ⟨field, hrecord, hflags, hproductions, hfunctions, hsequences, hranges, htotal⟩ := h
  obtain ⟨field', hrecord', hfields⟩ := exists_fields_of_alike (by decide) hvw hv hw hrecord
  simp only [List.forall_mem_cons] at hfields
  obtain ⟨hflags', hproductions', hfunctions', hsequences', hranges', htotal', -⟩ := hfields
  obtain ⟨hnodup, productions, hperm, hproductions⟩ :=
    hproductions.exists_perm keeps_production.list hproductions'
  obtain ⟨hnodup', ranges, hperm', hranges⟩ := hranges.exists_perm keeps_range hranges'
  refine ⟨{ e with productions, ranges }, ⟨rfl, hperm, hnodup, rfl, rfl, hperm', hnodup', rfl⟩,
    field', hrecord', hflags.keep keeps_flags hflags', hproductions,
    hfunctions.keep keeps_concreteFunction.list hfunctions',
    hsequences.keep keeps_symbol.list.list hsequences', hranges, htotal.keep keeps_exactly htotal'⟩

/-- Entries under the same ids, in the same order. -/
def RearrangedAll : List (String × ConcreteEntry) → List (String × ConcreteEntry) → Prop :=
  List.Forall₂ fun e e' => e.1 = e'.1 ∧ e.2.Rearranged e'.2

theorem exists_rearrangedAll {x y : Option Json} {told : Option (List (String × ConcreteEntry))}
    (hxy : FieldsAlike (dictionaryLike concreteLike) x y)
    (h : Omissible (IsNullable (IsDictionary IsUsable)) none x told) :
    ∃ told', RearrangedAll (told.getD []) (told'.getD []) ∧
      Omissible (IsNullable (IsDictionary IsUsable)) none y told' := by
  cases hxy with
  | none =>
    rw [show told = none from h]
    exact ⟨none, .nil, rfl⟩
  | some hvw =>
    obtain ⟨hv, hw, hvw⟩ := hvw
    cases told with
    | none =>
      obtain rfl := h
      obtain rfl | ⟨_, _, ⟨⟩, -⟩ := hvw
      exact ⟨none, .nil, rfl⟩
    | some entries =>
      obtain ⟨-, members, rfl, hmembers⟩ := h
      obtain ⟨members', rfl, hall⟩ := dictionaryLike_object hvw
      have hcarried : ∃ entries', RearrangedAll entries entries' ∧
          List.Forall₂ (fun m e => m.1 = e.1 ∧ IsUsable m.2 e.2) members' entries' := by
        refine forall₂_carry ?_ hall hmembers
        rintro ⟨id, v⟩ hm ⟨_, w⟩ hm' ⟨rfl, hvalue⟩ ⟨_, e⟩ ⟨rfl, he, haddressed⟩
        obtain ⟨e', hrearranged, he'⟩ := he.exists_rearranged ((keyed_object.1 hv).2 _ hm)
          ((keyed_object.1 hw).2 _ hm') hvalue
        exact ⟨(id, e'), ⟨rfl, hrearranged⟩, rfl, he', hrearranged.addressed haddressed⟩
      obtain ⟨entries', hrearranged, hmembers'⟩ := hcarried
      exact ⟨some entries', hrearranged, by simp, members', rfl, hmembers'⟩

/-- What a document says, an alike document says as well. -/
theorem IsDocument.exists_rearranged {document document' : Json} {g : AbstractGrammar}
    {entries : List (String × ConcreteEntry)} (h : document.keyed = true)
    (h' : document'.keyed = true) (halike : documentLike.r document document')
    (hdocument : IsDocument document g entries) :
    ∃ entries', RearrangedAll entries entries' ∧ IsDocument document' g entries' := by
  obtain ⟨members, told, rfl, habstract, htold, rfl⟩ := hdocument
  obtain ⟨members', rfl, hfields⟩ := exists_members_of_alike (by decide) halike h h'
  simp only [List.forall_mem_cons] at hfields
  obtain ⟨habstract', hconcretes', -⟩ := hfields
  obtain ⟨told', hrearranged, htold'⟩ := exists_rearrangedAll hconcretes' htold
  exact ⟨_, hrearranged, members', told', rfl, habstract.keep keeps_abstract habstract', htold',
    rfl⟩

end Document

/-! ## Answers -/

/-- Concrete grammars that have the same answer to every question. -/
structure ConcreteGrammar.Agrees (c c' : ConcreteGrammar) : Prop where
  id_eq : c'.id = c.id
  languageTag_eq : c'.languageTag = c.languageTag
  functions_eq : c'.functions = c.functions
  function?_eq : c'.function? = c.function?
  functionAt?_eq : c'.functionAt? = c.functionAt?
  sequences_eq : c'.sequences = c.sequences
  productionsFor_eq : c'.productionsFor = c.productionsFor
  functionsFor_eq : c'.functionsFor = c.functionsFor
  range?_eq : c'.range? = c.range?
  totalFids_eq : c'.totalFids = c.totalFids

namespace Document

theorem lookup?_perm {α : Type} {xs ys : List (String × α)} (h : xs.Perm ys)
    (hkeys : (xs.map (·.1)).Nodup) (key : String) : lookup? xs key = lookup? ys key :=
  congrArg (Option.map _) (find?_key_perm h hkeys key)

theorem SymbolOf.unique : Relator.RightUnique SymbolOf := by
  intro e s s' h h'
  rw [← SymbolEntry.symbol?_eq_some_iff] at h h'
  exact Option.some.inj (h.symm.trans h')

theorem Converts.agrees {id : String} {e e' : ConcreteEntry} {c c' : ConcreteGrammar}
    (h : Converts id e c) (h' : Converts id e' c') (hrearranged : e.Rearranged e') :
    c.Agrees c' := by
  have hfunctions : c'.functions = c.functions := by
    rw [h.functions_eq, h'.functions_eq, hrearranged.functions_eq]
  have hsequences : c'.sequences = c.sequences := by
    have hsays := h'.sequences
    rw [hrearranged.sequences_eq] at hsays
    exact SymbolOf.unique.forall₂.forall₂ hsays h.sequences
  have hproductions : c'.productionsFor = c.productionsFor := by
    funext category
    rw [h.productionsFor_eq, h'.productionsFor_eq,
      lookup?_perm hrearranged.productions hrearranged.nodup_productions]
  have hranges : c'.range? = c.range? := by
    funext category
    rw [ConcreteGrammar.range?, ConcreteGrammar.range?, h.ranges_eq, h'.ranges_eq,
      lookup?_perm hrearranged.ranges hrearranged.nodup_ranges]
  have hfunctionAt : c'.functionAt? = c.functionAt? := by
    funext fid
    rw [ConcreteGrammar.functionAt?, ConcreteGrammar.functionAt?, hfunctions]
  exact {
    id_eq := by rw [h.id_eq, h'.id_eq]
    languageTag_eq := by rw [h.languageTag_eq, h'.languageTag_eq, hrearranged.flags_eq]
    functions_eq := hfunctions
    function?_eq := by
      funext name
      rw [ConcreteGrammar.function?, ConcreteGrammar.function?, hfunctions]
    functionAt?_eq := hfunctionAt
    sequences_eq := hsequences
    productionsFor_eq := hproductions
    functionsFor_eq := by
      funext category
      rw [ConcreteGrammar.functionsFor, ConcreteGrammar.functionsFor, hproductions, hfunctionAt]
    range?_eq := hranges
    totalFids_eq := by rw [h.totalFids_eq, h'.totalFids_eq, hrearranged.totalFids_eq] }

end Document

namespace Grammar

open Document

/-- Grammars that have the same answer to every question, and remarks on the
same things. -/
structure Agrees (g g' : Grammar) : Prop where
  abstractGrammar_eq : g'.abstractGrammar = g.abstractGrammar
  concretes : List.Forall₂ ConcreteGrammar.Agrees g.concretes g'.concretes
  diagnostics : ∀ d, d ∈ g'.diagnostics ↔ d ∈ g.diagnostics

namespace Agrees

variable {g g' : Grammar} (h : g.Agrees g')

include h

/-- Where concrete grammars are told by their answers, the same ones are
found. -/
theorem find? {p : ConcreteGrammar → Bool} (hp : ∀ {c c'}, c.Agrees c' → p c' = p c) :
    Option.Rel ConcreteGrammar.Agrees (g.concretes.find? p) (g'.concretes.find? p) := by
  have hall := h.concretes
  generalize g.concretes = cs, g'.concretes = cs' at hall
  induction hall with
  | nil => exact .none
  | cons hc _ ih =>
    rw [List.find?_cons, List.find?_cons, hp hc]
    split
    · exact .some hc
    · exact ih

theorem concrete? (id : String) :
    Option.Rel ConcreteGrammar.Agrees (g.concrete? id) (g'.concrete? id) :=
  h.find? fun hc => by rw [hc.id_eq]

theorem concreteFor? (tag : String) :
    Option.Rel ConcreteGrammar.Agrees (g.concreteFor? tag) (g'.concreteFor? tag) :=
  h.find? fun hc => by rw [hc.languageTag_eq]

theorem named? (wanted : String) :
    Option.Rel ConcreteGrammar.Agrees (g.named? wanted) (g'.named? wanted) := by
  have hid := h.concrete? wanted
  rw [Grammar.named?, Grammar.named?]
  generalize g.concrete? wanted = found, g'.concrete? wanted = found' at hid
  cases hid with
  | none => exact h.concreteFor? wanted
  | some hc => exact .some hc

theorem map_concretes {β : Type} {f : ConcreteGrammar → β}
    (hf : ∀ {c c'}, c.Agrees c' → f c' = f c) : g'.concretes.map f = g.concretes.map f := by
  rw [← List.forall₂_eq_eq_eq, List.forall₂_map_left_iff, List.forall₂_map_right_iff]
  exact (h.concretes.imp fun _ _ hc => hf hc).flip

end Agrees

end Grammar

namespace Document

theorem RearrangedAll.exists_odd {entries entries' : List (String × ConcreteEntry)}
    (h : RearrangedAll entries entries') {d : Diagnostic} :
    (∃ e ∈ entries', e.2.Odd d) ↔ ∃ e ∈ entries, e.2.Odd d := by
  induction h with
  | nil => rfl
  | cons he _ ih => rw [List.exists_mem_cons_iff, List.exists_mem_cons_iff, he.2.odd_iff, ih]

/-- Alike documents give grammars that agree. -/
theorem exists_agreeing {document document' : Json} {g : Grammar} (h : document.keyed = true)
    (h' : document'.keyed = true) (halike : documentLike.r document document')
    (hg : grammar document = .ok g) : ∃ g', grammar document' = .ok g' ∧ g.Agrees g' := by
  obtain ⟨entries, parts, hdocument, hparts, hconcretes, hdiagnostics⟩ := (grammar_eq_ok_iff h).1 hg
  obtain ⟨entries', hrearranged, hdocument'⟩ := hdocument.exists_rearranged h h' halike
  obtain ⟨parts', hparts'⟩ := hdocument'.exists_parts
  let g' : Grammar := ⟨g.abstractGrammar, parts'.map (·.1),
    Diagnostic.noteAll [] (parts'.flatMap fun part => part.2.map Notice.diagnostic)⟩
  have hg' : grammar document' = .ok g' :=
    (grammar_eq_ok_iff h').2 ⟨entries', parts', hdocument', hparts', rfl, rfl⟩
  refine ⟨g', hg', rfl, ?_, fun d => ?_⟩
  · have hconverts : List.Forall₂ (fun part e => Converts e.1 e.2 part.1) parts entries :=
      (hparts.imp fun e part hpart => ConcreteEntry.converts_of_concrete hpart.1).flip
    have hconverts' : List.Forall₂ (fun e part => Converts e.1 e.2 part.1) entries' parts' :=
      hparts'.imp fun e part hpart => ConcreteEntry.converts_of_concrete hpart.1
    rw [hconcretes, List.forall₂_map_left_iff, List.forall₂_map_right_iff]
    refine (forall₂_comp_iff.2 ⟨entries, hconverts,
      forall₂_comp_iff.2 ⟨entries', hrearranged, hconverts'⟩⟩).imp ?_
    rintro part part' ⟨⟨id, e⟩, he, ⟨_, e'⟩, ⟨rfl, hrearranged⟩, he'⟩
    exact he.agrees he' hrearranged
  · rw [hdiagnostics, Diagnostic.mem_noteAll, Diagnostic.mem_noteAll, mem_diagnostics hparts,
      mem_diagnostics hparts', hrearranged.exists_odd]

end Document

/-! ## Taking fields out -/

namespace Json

variable {ms : List (String × Json)}

theorem fst_takeMember (key : String) (ms : List (String × Json)) :
    (takeMember key ms).1 = member? ms key := by
  induction ms with
  | nil => rfl
  | cons m rest ih =>
    rw [takeMember, member?_cons]
    by_cases heq : m.1 = key
    · simp [heq]
    · simp [heq, ih]

/-- All other members are left, in some order. -/
theorem perm_takeMember (hkeys : (ms.map (·.1)).Nodup) (key : String) :
    (takeMember key ms).2.Perm (ms.filter (·.1 != key)) := by
  induction ms with
  | nil => exact .refl _
  | cons m rest ih =>
    rw [List.map_cons, List.nodup_cons] at hkeys
    rw [takeMember]
    by_cases heq : m.1 = key
    · have hrest : rest.filter (·.1 != key) = rest := by
        refine List.filter_eq_self.2 fun x hx => bne_iff_ne.2 fun hkey => hkeys.1 ?_
        rw [heq, ← hkey]
        exact List.mem_map_of_mem hx
      rw [if_pos (by simpa using heq), List.filter_cons_of_neg (by simpa using heq), hrest]
      rcases List.eq_nil_or_concat rest with rfl | ⟨init, last, rfl⟩
      · exact .refl _
      · simpa using (List.perm_append_singleton last init).symm
    · rw [if_neg (by simpa using heq), List.filter_cons_of_pos (by simpa using heq)]
      exact (ih hkeys.2).cons m

/-- Whatever is taken out, another field is still found. -/
theorem member?_takeMember (hkeys : (ms.map (·.1)).Nodup) {key other : String}
    (hne : other ≠ key) : member? (takeMember key ms).2 other = member? ms other := by
  have hperm := perm_takeMember hkeys key
  have hleft : ((ms.filter (·.1 != key)).map (·.1)).Nodup :=
    hkeys.sublist (List.filter_sublist.map _)
  rw [← member?_perm hperm.symm hleft, member?_filter (· != key) (bne_iff_ne.2 hne)]

theorem nodup_takeMember (hkeys : (ms.map (·.1)).Nodup) (key : String) :
    ((takeMember key ms).2.map (·.1)).Nodup :=
  (((perm_takeMember hkeys key).map _).nodup_iff).2 (hkeys.sublist (List.filter_sublist.map _))

end Json

namespace Document

theorem abstractByRemoval_eq {fields : List (String × Json)} (hkeys : (fields.map (·.1)).Nodup) :
    abstractByRemoval (.object fields) = (do
      let name ← grammarName (member? fields "name")
      let start ← startCategory (member? fields "startcat")
      let functions ← declarations (member? fields "funs")
      return .ofDeclarations name start functions) := by
  have hstart : member? (takeMember "name" fields).2 "startcat" = member? fields "startcat" :=
    member?_takeMember hkeys (by decide)
  have hfuns : member? (takeMember "startcat" (takeMember "name" fields).2).2 "funs"
      = member? fields "funs" :=
    (member?_takeMember (nodup_takeMember hkeys _) (by decide)).trans
      (member?_takeMember hkeys (by decide))
  simp only [abstractByRemoval, fst_takeMember, hstart, hfuns]

/-- Documents are read in the same way if fields are taken out. -/
theorem grammarByRemoval_eq {document : Json} (h : document.keyed = true) :
    grammarByRemoval document = grammar document := by
  cases document with
  | object members =>
    have hkeys := (keyed_object.1 h).1
    have hconcretes : concreteMembers (.object (takeMember "abstract" members).2)
        = concreteMembers (.object members) := by
      rw [concreteMembers, concreteMembers, field?, field?, member?_takeMember hkeys (by decide)]
    simp only [grammarByRemoval, grammar, abstractPart, fst_takeMember, hconcretes]
    cases habstract : member? members "abstract" with
    | none => rfl
    | some v =>
      cases v with
      | object fields =>
        have hfields := (keyed_object.1 (keyed_of_member? h habstract)).1
        simp only [abstractByRemoval_eq hfields]
      | null | bool _ | number _ | string _ | array _ => rfl
  | null | bool _ | number _ | string _ | array _ => rfl

/-! ## An example -/

/-- An abstract grammar with one function. -/
def tersePart : Json :=
  .object [
    ("startcat", .string "S"),
    ("funs", .object [("Rain", .object [("cat", .string "S"), ("args", .array [])])])]

/-- The same with a remark, and the arguments before the category. -/
def chattyPart : Json :=
  .object [
    ("startcat", .string "S"),
    ("funs", .object [
      ("Rain", .object [("args", .array []), ("cat", .string "S"), ("remark", .null)])])]

theorem chattyPart_alike : abstractLike.r tersePart chattyPart := by
  have hfunction : functionLike.r (.object [("cat", .string "S"), ("args", .array [])])
      (.object [("args", .array []), ("cat", .string "S"), ("remark", .null)]) :=
    functionLike.trans (recordLike_of_perm (.swap _ _ _))
      (recordLike_insert [("args", .array []), ("cat", .string "S")] [] (by decide) .null)
  exact recordLike_replace [("startcat", .string "S")] [] (by decide)
    (.tail _ (.tail _ (.head _))) (dictionaryLike_of_inOrder (.cons ⟨rfl, hfunction⟩ .nil))

/-- A concrete grammar that has no function for what it produces. -/
def terseConcrete : Json :=
  .object [
    ("productions", .object [
      ("S", .array [.object [("type", .string "Coerce")]]),
      ("NP", .array [])]),
    ("totalfids", .number (.integer 2))]

/-- The same with every table turned around. -/
def chattyConcrete : Json :=
  .object [
    ("totalfids", .number (.integer 2)),
    ("productions", .object [
      ("NP", .array []),
      ("S", .array [.object [("type", .string "Coerce")]])])]

theorem chattyConcrete_alike : concreteLike.r terseConcrete chattyConcrete := by
  refine concreteLike.trans ?_ (recordLike_of_perm (.swap _ _ _))
  exact recordLike_replace [] [("totalfids", .number (.integer 2))] (by decide)
    (.tail _ (.head _)) (tableLike_of_perm (.swap _ _ _))

/-- A document with few words. -/
def terseDocument : Json :=
  .object [("abstract", tersePart), ("concretes", .object [("Eng", terseConcrete)])]

/-- The same in another order, and with more words. -/
def chattyDocument : Json :=
  .object [
    ("concretes", .object [("Eng", chattyConcrete)]),
    ("version", .number (.integer 3)),
    ("abstract", chattyPart)]

theorem chattyDocument_alike : documentLike.r terseDocument chattyDocument := by
  have habstract : documentLike.r terseDocument (.object [
      ("abstract", chattyPart), ("concretes", .object [("Eng", terseConcrete)])]) :=
    recordLike_replace [] _ (by decide) (.head _) chattyPart_alike
  have hconcretes : documentLike.r (.object [
      ("abstract", chattyPart), ("concretes", .object [("Eng", terseConcrete)])]) (.object [
      ("abstract", chattyPart), ("concretes", .object [("Eng", chattyConcrete)])]) :=
    recordLike_replace [("abstract", chattyPart)] [] (by decide) (.tail _ (.head _))
      (dictionaryLike_of_inOrder (.cons ⟨rfl, chattyConcrete_alike⟩ .nil))
  refine documentLike.trans habstract (documentLike.trans hconcretes ?_)
  refine documentLike.trans (recordLike_of_perm (.swap _ _ _)) ?_
  exact recordLike_insert [("concretes", .object [("Eng", chattyConcrete)])]
    [("abstract", chattyPart)] (by decide) (.number (.integer 3))

end Document

open Document

/-- **What does not count in a document.** Documents may differ in the order of
the members of every record, also in members that no record knows, and in the
order of the categories that have productions or ranges; the order of the
functions and that of the concrete grammars count, and so does all that a
symbol has for arguments (`documentLike`). Of two such documents either both are
accepted or none is. If both are, the abstract grammars are the same, the
concrete grammars come in the same order and have the same answers to all
questions, and the remarks are on the same things. It makes no difference
either if fields are taken out when a document is read, which puts what is left
of it into another order. All this is said of documents without double keys, as
there are no others. -/
theorem Grammar.ofJson_alike {document document' : Json} (h : document.keyed = true)
    (h' : document'.keyed = true) (halike : documentLike.r document document') :
    ((∃ g, ofJson document = .ok g) ↔ ∃ g, ofJson document' = .ok g) ∧
    (∀ g g', ofJson document = .ok g → ofJson document' = .ok g' →
      g'.abstractGrammar = g.abstractGrammar ∧
      g'.concreteIds = g.concreteIds ∧ g'.languageTags = g.languageTags ∧
      List.Forall₂ ConcreteGrammar.Agrees g.concretes g'.concretes ∧
      (∀ wanted, Option.Rel ConcreteGrammar.Agrees (g.concrete? wanted) (g'.concrete? wanted) ∧
        Option.Rel ConcreteGrammar.Agrees (g.concreteFor? wanted) (g'.concreteFor? wanted) ∧
        Option.Rel ConcreteGrammar.Agrees (g.named? wanted) (g'.named? wanted)) ∧
      ∀ d, d ∈ g'.diagnostics ↔ d ∈ g.diagnostics) ∧
    grammarByRemoval document = Document.grammar document := by
  simp only [ofJson, mapError_eq_ok_iff]
  refine ⟨⟨?_, ?_⟩, fun g g' hg hg' => ?_, grammarByRemoval_eq h⟩
  · rintro ⟨g, hg⟩
    obtain ⟨g', hg', -⟩ := exists_agreeing h h' halike hg
    exact ⟨g', hg'⟩
  · rintro ⟨g', hg'⟩
    obtain ⟨g, hg, -⟩ := exists_agreeing h' h (documentLike.symm halike) hg'
    exact ⟨g, hg⟩
  · obtain ⟨found, hfound, hagrees⟩ := exists_agreeing h h' halike hg
    rw [hg', Except.ok.injEq] at hfound
    subst hfound
    exact ⟨hagrees.abstractGrammar_eq, hagrees.map_concretes fun hc => hc.id_eq,
      hagrees.map_concretes fun hc => hc.languageTag_eq, hagrees.concretes,
      fun wanted => ⟨hagrees.concrete? wanted, hagrees.concreteFor? wanted, hagrees.named? wanted⟩,
      hagrees.diagnostics⟩

theorem Grammar.ofJson_chatty : terseDocument.keyed = true ∧ chattyDocument.keyed = true ∧
    documentLike.r terseDocument chattyDocument ∧
    ∃ g g', ofJson terseDocument = .ok g ∧ ofJson chattyDocument = .ok g' ∧
      g.diagnostics = [.productionWithoutFunction "S" "Coerce"] ∧
      g'.abstractGrammar = g.abstractGrammar ∧
      List.Forall₂ ConcreteGrammar.Agrees g.concretes g'.concretes ∧
      ∀ d, d ∈ g'.diagnostics ↔ d ∈ g.diagnostics := by
  obtain ⟨-, hagree, -⟩ := ofJson_alike (by decide) (by decide) chattyDocument_alike
  obtain ⟨habstract, -, -, hconcretes, -, hdiagnostics⟩ := hagree _ _ rfl rfl
  exact ⟨by decide, by decide, chattyDocument_alike, _, _, rfl, rfl, rfl, habstract, hconcretes,
    hdiagnostics⟩

end GrammarExplorer
