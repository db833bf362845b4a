/-
The alternatives that the command line lists.

The command looks up the language by itself, and asks the grammar for the
functions of a category without building a tree. It says what a session says
all the same: the root of the tree on a category is a node of that category,
whether anything produces it or not, so what the root has to offer is what
there is for the category in the mode that the language sets
(`listAlternatives_eq`). The rest of the program passes this on as it is.
-/
import GrammarExplorer.CommandLine.Run
import GrammarExplorer.Proofs.Grammar.Load
import GrammarExplorer.Proofs.Session.Language
import GrammarExplorer.Proofs.Session.Undo

namespace GrammarExplorer

/-! ## The root -/

namespace Session

open DerivationTree

theorem categoryAt?_root (g : Grammar) (category : String) :
    (ofCategory g category).categoryAt? root = some category := by
  have hroot := (holds_ofRose (Expansion.ofCategory g.abstractGrammar category)).node?
  rw [Expansion.ofCategory, Expansion.label_expand] at hroot
  simp only [categoryAt?, tree_ofCategory, root, Expansion.ofCategory, hroot, row, if_true]

section Root

variable (g : Grammar) (category : String)

theorem offers_abstractNames :
    let s : Session := { ofCategory g category with mode := .abstractNames }
    s.alternatives root = g.abstractGrammar.functionsFor category ∧
      s.alternativesLog root = [] := by
  intro s
  have hcategory : s.categoryAt? root = some category := categoryAt?_root g category
  rw [alternatives, alternativesLog, hcategory]
  exact ⟨rfl, rfl⟩

theorem offers_concrete (hids : g.concreteIds.Nodup) {c : ConcreteGrammar}
    (hc : c ∈ g.concretes) :
    let s : Session := { ofCategory g category with mode := .concrete c.id }
    s.alternatives root = c.functionsFor category ∧
      s.alternativesLog root = c.functionsForLog category := by
  intro s
  have hcategory : s.categoryAt? root = some category := categoryAt?_root g category
  have hfound : s.grammar.concrete? c.id = some c := Grammar.concrete?_id hids hc
  have hmode : s.mode = .concrete c.id := rfl
  simp only [alternatives, alternativesLog, functionsFor, hcategory, hmode, hfound, and_self]

end Root

end Session

namespace CommandLine

open DerivationTree

variable {g : Grammar} {files : Files} {i : Invocation} {path category : String}
  {language : Option String} {s : Settings}

/-- The command answers as a session on the category does, and has the same
things to say. -/
theorem listAlternatives_eq (hids : g.concreteIds.Nodup) (s : Settings) (category : String) :
    listAlternatives s g category =
      match (Session.ofCategory g category).setLanguage s.display.language? with
      | .ok session =>
        ⟨session.alternativesLog root, .ok (unlines (session.alternatives root))⟩
      | .error cause => ⟨[], .error (.select cause)⟩ := by
  unfold listAlternatives
  cases s.display.language? with
  | none =>
    obtain ⟨hoffers, hlog⟩ := Session.offers_abstractNames g category
    rw [Session.setLanguage_none]
    simp only [hoffers, hlog]
  | some wanted =>
    have hgrammar : (Session.ofCategory g category).grammar = g := rfl
    cases hnamed : g.named? wanted with
    | none =>
      rw [Session.setLanguage_of_unnamed (hgrammar.symm ▸ hnamed)]
      simp only [hnamed]
    | some c =>
      obtain ⟨hoffers, hlog⟩ :=
        Session.offers_concrete g category hids (Grammar.mem_of_named? hnamed)
      rw [Session.setLanguage_of_named (hgrammar.symm ▸ hnamed)]
      simp only [hnamed, hoffers, hlog]

theorem message_noConcreteGrammar (wanted : String) :
    (SelectError.noConcreteGrammar wanted).message = "No concrete grammar '" ++ wanted ++ "'" := rfl

theorem language?_eq_some_iff {d : DisplaySettings} {wanted : String} :
    d.language? = some wanted ↔ d.language ≠ "" ∧ d.language = wanted := by
  simp [DisplaySettings.language?, DisplaySettings.set?_eq]

theorem respond_of_alternatives {arguments : List String} (hread : read arguments = .ok i)
    (hcommand : i.command = .alternatives path category language)
    (hsettings : settings files i = .ok s) (hgrammar : Grammar.ofFile files path = .ok g) :
    respond files arguments =
      (⟨(Source.file path).log files ++ (listAlternatives s g category).log,
        (listAlternatives s g category).result⟩ : Report).ending i.verbose := by
  have hsource : (Source.file path).grammar files = .ok g := hgrammar
  simp only [respond, hread, run, hcommand, hsettings, withGrammar, hsource]

/-- **The command line and a session agree on alternatives.** Take a call of
the program for the alternatives of a category, known or not, where the
settings can be read and the document can be loaded, and a session on that
category, which is asked for the language of the settings unless that is empty.
If the session accepts the language, the program ends well and writes out the
names of what the root then has to offer, in this order, with a line end after
each and nothing else. If the session refuses the language, it is for want of
such a concrete grammar; then, and only then, the program fails, with nothing
written out and the message of the refusal as its error. -/
theorem respond_alternatives {arguments : List String} (hread : read arguments = .ok i)
    (hcommand : i.command = .alternatives path category language)
    (hsettings : settings files i = .ok s) (hgrammar : Grammar.ofFile files path = .ok g) :
    let wanted := s.display.language
    let answer := (Session.ofCategory g category).setLanguage
      (if wanted = "" then none else some wanted)
    let ending := respond files arguments
    (∀ session, answer = .ok session → ending.code = 0 ∧
      ending.output = String.join ((session.alternatives root).map fun name => name ++ "\n")) ∧
    (∀ cause, answer = .error cause →
      (wanted ≠ "" ∧ cause = .noConcreteGrammar wanted ∧
        cause.message = "No concrete grammar '" ++ wanted ++ "'") ∧
        ending.code = 1 ∧ ending.output = "" ∧
        ending.errors = logText i.verbose ((Source.file path).log files)
          ++ "Error: " ++ cause.message ++ "\n") ∧
    (ending.code = 1 ↔ ∃ cause, answer = .error cause) := by
  intro wanted answer ending
  obtain ⟨document, hkeyed, hdocument⟩ := Grammar.exists_document_of_ofFile hgrammar
  have hlist := listAlternatives_eq (Document.nodup_concreteIds hkeyed hdocument) s category
  have hasked : (Session.ofCategory g category).setLanguage s.display.language? = answer := by
    rw [DisplaySettings.language?, DisplaySettings.set?_eq]
  have hending : ending = _ := respond_of_alternatives hread hcommand hsettings hgrammar
  rw [hlist, hasked] at hending
  cases hanswer : answer with
  | ok session =>
    rw [hanswer] at hending
    simp [hending, Report.ending, unlines]
  | error cause =>
    rw [hanswer] at hending
    obtain ⟨name, hname, hmissing⟩ :=
      Session.exists_of_setLanguage_eq_error (hasked.trans hanswer)
    obtain ⟨hset, hsame⟩ := language?_eq_some_iff.1 hname
    have hcause : cause = .noConcreteGrammar wanted := by rw [hmissing, ← hsame]
    have hmessage : cause.message = "No concrete grammar '" ++ wanted ++ "'" := by
      rw [hcause, message_noConcreteGrammar]
    have hwanted : wanted ≠ "" ∧ cause = .noConcreteGrammar wanted ∧
        cause.message = "No concrete grammar '" ++ wanted ++ "'" := ⟨hset, hcause, hmessage⟩
    simpa [hending, Report.ending, Failure.message] using hwanted

/-- A file with a grammar for which nothing produces its start category, but in
one language there are two words for it. -/
def wordFiles : Files :=
  ⟨[("g", ("\x7b\"abstract\":\x7b\"startcat\":\"S\",\"funs\":\x7b\x7d\x7d,"
    ++ "\"concretes\":\x7b\"E\":\x7b\"functions\":[[\"f\"],[\"h\"]],"
    ++ "\"productions\":\x7b\"S\":[[\"A\",1],[\"A\",0]]\x7d\x7d\x7d\x7d").toUTF8)]⟩

/-- The words, and a language that is missing. -/
theorem respond_alternatives_word : ∃ i s g session,
    read ["alternatives", "g", "S", "-l", "E"] = .ok i ∧
      i.command = .alternatives "g" "S" (some "E") ∧ settings wordFiles i = .ok s ∧
      Grammar.ofFile wordFiles "g" = .ok g ∧ s.display.language = "E" ∧
      (Session.ofCategory g "S").setLanguage (some "E") = .ok session ∧
      (respond wordFiles ["alternatives", "g", "S", "-l", "E"]).code = 0 ∧
      (respond wordFiles ["alternatives", "g", "S", "-l", "E"]).output
        = String.join ((session.alternatives root).map fun name => name ++ "\n") ∧
      (respond wordFiles ["alternatives", "g", "S", "-l", "E"]).output = "h\nf\n" ∧
      respond wordFiles ["alternatives", "g", "S", "-l", "X"]
        = ⟨1, "", "Error: No concrete grammar 'X'\n"⟩ := by
  let i : Invocation := ⟨none, false, .alternatives "g" "S" (some "E")⟩
  have hread : read ["alternatives", "g", "S", "-l", "E"] = .ok i :=
    toOption_eq_some_iff.1 (by decide +kernel)
  have hlanguage : (settings wordFiles i).toOption.map (·.display.language) = some "E" := by
    decide +kernel
  have hnamed : (Grammar.ofFile wordFiles "g").toOption.map (fun g => (g.named? "E").isSome)
      = some true := by decide +kernel
  obtain ⟨s, hsettings, hlanguage⟩ := Option.map_eq_some_iff.1 hlanguage
  obtain ⟨g, hgrammar, hnamed⟩ := Option.map_eq_some_iff.1 hnamed
  obtain ⟨c, hc⟩ := Option.isSome_iff_exists.1 hnamed
  have hanswer := Session.setLanguage_of_named (s := Session.ofCategory g "S") hc
  have hcall := respond_alternatives hread rfl (toOption_eq_some_iff.1 hsettings)
    (toOption_eq_some_iff.1 hgrammar)
  rw [hlanguage] at hcall
  obtain ⟨hcode, houtput⟩ := hcall.1 _ hanswer
  exact ⟨i, s, g, _, hread, rfl, toOption_eq_some_iff.1 hsettings,
    toOption_eq_some_iff.1 hgrammar, hlanguage, hanswer, hcode, houtput, by decide +kernel,
    by decide +kernel⟩

end CommandLine

end GrammarExplorer
