/-
The tree that the command line writes.

Five stages may each fail before anything is written: the settings, the file,
the document in it, the language, and the format. `Shows` says that none does.
Then what is written is made of the tree of the start category alone
(`result_run_tree_eq_ok_iff`): the session is given a separator and a language
on the way, but neither changes its tree (`snapshot_of_setLanguage`).
-/
import GrammarExplorer.CommandLine.Run
import GrammarExplorer.Proofs.Except
import GrammarExplorer.Proofs.Session.Language
import GrammarExplorer.Proofs.Session.Undo

namespace GrammarExplorer

/-! ## Formats -/

namespace FormatRegistry

/-- The formats that are there from the start, by name, with the text that each
makes of a snapshot. -/
def writers : List (String × (Snapshot → String)) :=
  [("json", JsonFormat.write), ("treeviz", Drawing.draw), ("yaml", YamlFormat.write)]

theorem formatters_builtin :
    builtin.formatters = [JsonFormat.formatter, Drawing.formatter, YamlFormat.formatter] := by
  have hjson : "json" < "treeviz" := by decide
  have hyaml : ¬"yaml" < "json" ∧ ¬"yaml" < "treeviz" := by decide
  simp [builtin, register, insert, empty, JsonFormat.formatter, Drawing.formatter,
    YamlFormat.formatter, hjson, hyaml]

/-- None of them ever fails, and any other name is refused. -/
theorem serialize_builtin_eq_ok_iff {snapshot : Snapshot} {name text : String} :
    builtin.serialize snapshot name = .ok text ↔
      ∃ write, (name, write) ∈ writers ∧ text = write snapshot := by
  have hnames : JsonFormat.formatter.name = "json" ∧ Drawing.formatter.name = "treeviz" ∧
      YamlFormat.formatter.name = "yaml" := ⟨rfl, rfl, rfl⟩
  rw [serialize, find?, formatters_builtin]
  simp only [writers, List.find?_cons, hnames, List.mem_cons, Prod.mk.injEq, List.not_mem_nil]
  by_cases hjson : name = "json"
  · simp [hjson, JsonFormat.formatter, eq_comm]
  · by_cases htreeviz : name = "treeviz"
    · simp [htreeviz, Drawing.formatter, eq_comm]
    · by_cases hyaml : name = "yaml"
      · simp [hyaml, YamlFormat.formatter, eq_comm]
      · simp [hjson, htreeviz, hyaml, beq_false_of_ne (Ne.symm hjson),
          beq_false_of_ne (Ne.symm htreeviz), beq_false_of_ne (Ne.symm hyaml)]

end FormatRegistry

/-! ## Sessions -/

theorem Grammar.ofFile_eq_ok_iff {files : Files} {path : String} {g : Grammar} :
    Grammar.ofFile files path = .ok g ↔
      ∃ text, files.readText path = .ok text ∧ Grammar.ofText text = .ok g := by
  rw [Grammar.ofFile]
  cases files.readText path <;> simp

namespace CommandLine

variable {files : Files} {i : Invocation} {path text : String} {s : Settings} {g : Grammar}
  {language format category : Option String} {write : Snapshot → String}

theorem startCategory_eq (s : Settings) (g : Grammar) : startCategory s g =
    if s.display.startCategory = "" then g.startCategory else s.display.startCategory := by
  rw [startCategory, DisplaySettings.startCategory?, DisplaySettings.set?_eq]
  by_cases h : s.display.startCategory = "" <;> simp [h]

/-- A session shows the tree of the start category, in whatever language. -/
theorem snapshot_of_setLanguage {session : Session}
    (h : (freshSession s g).setLanguage language = .ok session) : session.snapshot =
      .ofTree (DerivationTree.build g.abstractGrammar (startCategory s g)).tree := by
  rw [Session.snapshot, Session.tree_setLanguage h]
  rfl

/-- A session gets its language if the settings want none that the grammar does
not have. -/
theorem exists_language_iff :
    (∃ session, (freshSession s g).setLanguage s.display.language? = .ok session) ↔
      s.display.language = "" ∨
        ∃ c ∈ g.concretes, c.id = s.display.language ∨ c.languageTag = s.display.language := by
  have hgrammar : (freshSession s g).grammar = g := rfl
  rw [Session.exists_setLanguage_eq_ok_iff, hgrammar, DisplaySettings.language?,
    DisplaySettings.set?_eq]
  by_cases h : s.display.language = "" <;> simp [h]

theorem result_withSession (files : Files) (s : Settings) (path : String)
    (go : Session → Except Failure String) :
    (withSession files s path go).result = (do
      let g ← (Grammar.ofFile files path).mapError .grammar
      let session ← ((freshSession s g).setLanguage s.display.language?).mapError .select
      go session) := by
  unfold withSession Source.grammar
  dsimp only
  cases Grammar.ofFile files path with
  | error cause => rfl
  | ok g =>
    cases hset : (freshSession s g).setLanguage s.display.language? with
    | error cause => simp only [bind, Except.mapError, Except.bind, hset]
    | ok session => simp only [bind, Except.mapError, Except.bind, hset]

theorem result_run_tree (hcommand : i.command = .tree path language format category) :
    (run files i).result = (do
      let s ← (settings files i).mapError .settings
      (withSession files s path (treeText s)).result) := by
  unfold run
  rw [hcommand]
  cases settings files i <;> rfl

/-- What it takes for the tree of a file to be written: readable settings, a
file with a grammar, a language that the grammar has if one is set at all, and
a format that is known. -/
structure Shows (files : Files) (i : Invocation) (path : String) (s : Settings) (g : Grammar)
    (write : Snapshot → String) : Prop where
  settings : settings files i = .ok s
  grammar : ∃ text, files.readText path = .ok text ∧ Grammar.ofText text = .ok g
  language : s.display.language = "" ∨
    ∃ c ∈ g.concretes, c.id = s.display.language ∨ c.languageTag = s.display.language
  format : (s.output.format, write) ∈ FormatRegistry.writers

/-- The command writes something just if no stage fails, and then it is what the
format makes of the tree of the start category. -/
theorem result_run_tree_eq_ok_iff (hcommand : i.command = .tree path language format category) :
    (run files i).result = .ok text ↔ ∃ s g write, Shows files i path s g write ∧ text =
      write (.ofTree (DerivationTree.build g.abstractGrammar (startCategory s g)).tree) := by
  simp only [result_run_tree hcommand, bind_eq_ok_iff, mapError_eq_ok_iff, result_withSession,
    treeText, FormatRegistry.serialize_builtin_eq_ok_iff]
  constructor
  · rintro ⟨s, hsettings, g, hgrammar, session, hsession, write, hwrite, rfl⟩
    rw [snapshot_of_setLanguage hsession]
    exact ⟨s, g, write, ⟨hsettings, Grammar.ofFile_eq_ok_iff.1 hgrammar,
      exists_language_iff.1 ⟨session, hsession⟩, hwrite⟩, rfl⟩
  · rintro ⟨s, g, write, h, rfl⟩
    obtain ⟨session, hsession⟩ := exists_language_iff.2 h.language
    refine ⟨s, h.settings, g, Grammar.ofFile_eq_ok_iff.2 h.grammar, session, hsession, write,
      h.format, ?_⟩
    rw [snapshot_of_setLanguage hsession]

theorem Report.code_ending_eq_zero_iff (r : Report) (verbose : Bool) :
    (r.ending verbose).code = 0 ↔ ∃ text, r.result = .ok text := by
  rw [Report.ending]
  cases r.result <;> simp

theorem Report.output_ending_of_ok {r : Report} (h : r.result = .ok text) (verbose : Bool) :
    (r.ending verbose).output = text := by
  rw [Report.ending, h]

theorem Report.ending_of_not_ok {r : Report} (h : ¬∃ text, r.result = .ok text) (verbose : Bool) :
    (r.ending verbose).code = 1 ∧ (r.ending verbose).output = "" := by
  rw [Report.ending]
  cases hr : r.result with
  | ok text => exact absurd ⟨text, hr⟩ h
  | error failure => exact ⟨rfl, rfl⟩

theorem respond_of_read {arguments : List String} (hread : read arguments = .ok i) :
    respond files arguments = (run files i).ending i.verbose := by
  rw [respond, hread]

/-- With no stage failing, what is written depends on the grammar, the start
category and the format alone. -/
theorem Shows.respond {arguments : List String} (h : Shows files i path s g write)
    (hread : read arguments = .ok i)
    (hcommand : i.command = .tree path language format category) :
    (respond files arguments).code = 0 ∧ (respond files arguments).output =
      write (.ofTree (DerivationTree.build g.abstractGrammar (startCategory s g)).tree) := by
  have hresult := (result_run_tree_eq_ok_iff hcommand).2 ⟨s, g, write, h, rfl⟩
  rw [respond_of_read hread]
  exact ⟨(Report.code_ending_eq_zero_iff _ _).2 ⟨_, hresult⟩, Report.output_ending_of_ok hresult _⟩

/-- **The tree that is written.** For all files, take any call of the program
for the tree of a file. It ends well just if the settings can be read, the file
can be read and has a grammar in it, the language that is set, if any, is the id
or the tag of a concrete grammar, and the format is one of those that are there.
Then it writes what this format makes of the tree of the category that is set,
or else of the grammar's own; and so does every other call that ends well with
that grammar, that category and that format, whatever language and separator
are set for either. Otherwise its code is one, and nothing is written. -/
theorem respond_tree (files : Files) {arguments : List String} (hread : read arguments = .ok i)
    (hcommand : i.command = .tree path language format category) :
    let ending := respond files arguments
    (ending.code = 0 ↔ ∃ s g write, Shows files i path s g write) ∧
    (∀ s g write, Shows files i path s g write →
      let start := if s.display.startCategory = "" then g.startCategory
        else s.display.startCategory
      ending.output = write (.ofTree (DerivationTree.build g.abstractGrammar start).tree) ∧
      ∀ files' arguments' i' path' language' format' category' s',
        read arguments' = .ok i' → i'.command = .tree path' language' format' category' →
        Shows files' i' path' s' g write →
        s'.display.startCategory = s.display.startCategory →
        (respond files' arguments').output = ending.output) ∧
    ((¬∃ s g write, Shows files i path s g write) → ending.code = 1 ∧ ending.output = "") := by
  intro ending
  have hsucceeds : (∃ text, (run files i).result = .ok text) ↔
      ∃ s g write, Shows files i path s g write := by
    simp only [result_run_tree_eq_ok_iff hcommand]
    exact ⟨fun ⟨_, s, g, write, h, _⟩ => ⟨s, g, write, h⟩,
      fun ⟨s, g, write, h⟩ => ⟨_, s, g, write, h, rfl⟩⟩
  have hending : ending = (run files i).ending i.verbose := respond_of_read hread
  refine ⟨?_, fun s g write h => ?_, fun h => ?_⟩
  · rw [hending, Report.code_ending_eq_zero_iff, hsucceeds]
  · intro start
    have hstart : startCategory s g = start := startCategory_eq s g
    have houtput := (h.respond hread hcommand).2
    rw [hstart] at houtput
    refine ⟨houtput, fun files' arguments' i' path' _ _ _ s' hread' hcommand' h' hsame => ?_⟩
    have hstart' : startCategory s' g = start := by rw [startCategory_eq, hsame]
    rw [(h'.respond hread' hcommand').2, hstart']
    exact houtput.symm
  · rw [hending]
    exact Report.ending_of_not_ok (fun hok => h (hsucceeds.1 hok)) _

/-- A file with a grammar that has one language, and one with settings that go
with it. -/
def languageFiles : Files :=
  ⟨[("g", ("\x7b\"abstract\":\x7b\"startcat\":\"S\",\"funs\":\x7b\"f\":"
    ++ "\x7b\"cat\":\"S\",\"args\":[\"S\"]\x7d\x7d\x7d,"
    ++ "\"concretes\":\x7b\"E\":\x7b\x7d\x7d\x7d").toUTF8),
    ("c", "[display]\nlanguage=\"E\"\nlinearization_separator=\"+\"".toUTF8)]⟩

theorem respond_tree_languages : ∃ (i i' : Invocation) (s s' : Settings) (g : Grammar),
    read ["show", "g", "-f", "json"] = .ok i ∧
      read ["show", "g", "-f", "json", "-c", "c"] = .ok i' ∧
      i.command = .tree "g" none (some "json") none ∧
      i'.command = .tree "g" none (some "json") none ∧
      Shows languageFiles i "g" s g JsonFormat.write ∧
      Shows languageFiles i' "g" s' g JsonFormat.write ∧
      s.display = ⟨"", " | ", ""⟩ ∧ s'.display = ⟨"E", "+", ""⟩ ∧
      (respond languageFiles ["show", "g", "-f", "json"]).code = 0 ∧
      (respond languageFiles ["show", "g", "-f", "json"]).output
        = JsonFormat.write (.ofTree (DerivationTree.build g.abstractGrammar g.startCategory).tree) ∧
      (respond languageFiles ["show", "g", "-f", "json", "-c", "c"]).output
        = (respond languageFiles ["show", "g", "-f", "json"]).output ∧
      (respond languageFiles ["show", "g", "-f", "yaml"]).output
        = "id: 0\ndisplay_name: S\nname: S\nkind: Category\nedited: false\nhas_children: true\n"
          ++ "children:\n- id: 1\n  display_name: f\n  name: f\n  kind: Function\n"
          ++ "  edited: false\n  has_children: true\n  children:\n  - id: 2\n"
          ++ "    display_name: S\n    name: S\n    kind: Category\n    edited: false\n"
          ++ "    has_children: false\n    children: []\n" ∧
      (respond languageFiles ["show", "g", "-f", "dot"]).code = 1 ∧
      (respond languageFiles ["show", "g", "-f", "dot"]).output = "" := by
  let i : Invocation := ⟨none, false, .tree "g" none (some "json") none⟩
  let i' : Invocation := ⟨some "c", false, .tree "g" none (some "json") none⟩
  let bad : Invocation := ⟨none, false, .tree "g" none (some "dot") none⟩
  let s : Settings := ⟨⟨"", " | ", ""⟩, ⟨40, true⟩, ⟨"json"⟩⟩
  let s' : Settings := ⟨⟨"E", "+", ""⟩, ⟨40, true⟩, ⟨"json"⟩⟩
  have hread : read ["show", "g", "-f", "json"] = .ok i :=
    toOption_eq_some_iff.1 (by decide +kernel)
  have hread' : read ["show", "g", "-f", "json", "-c", "c"] = .ok i' :=
    toOption_eq_some_iff.1 (by decide +kernel)
  have hreadBad : read ["show", "g", "-f", "dot"] = .ok bad :=
    toOption_eq_some_iff.1 (by decide +kernel)
  have hsettings : settings languageFiles i = .ok s :=
    toOption_eq_some_iff.1 (by decide +kernel)
  have hsettings' : settings languageFiles i' = .ok s' :=
    toOption_eq_some_iff.1 (by decide +kernel)
  have hsettingsBad : settings languageFiles bad = .ok { s with output := ⟨"dot"⟩ } :=
    toOption_eq_some_iff.1 (by decide +kernel)
  have hgrammar : (Grammar.ofFile languageFiles "g").toOption.map (·.concreteIds) = some ["E"] := by
    decide +kernel
  obtain ⟨g, hg, hids⟩ := Option.map_eq_some_iff.1 hgrammar
  have hg := Grammar.ofFile_eq_ok_iff.1 (toOption_eq_some_iff.1 hg)
  obtain ⟨c, hc, hid⟩ : ∃ c ∈ g.concretes, c.id = "E" := by
    rw [← List.mem_map, show g.concretes.map (·.id) = ["E"] from hids]
    exact List.mem_cons_self
  have hshows : Shows languageFiles i "g" s g JsonFormat.write :=
    ⟨hsettings, hg, .inl rfl, List.mem_cons_self⟩
  have hshows' : Shows languageFiles i' "g" s' g JsonFormat.write :=
    ⟨hsettings', hg, .inr ⟨c, hc, .inl hid⟩, List.mem_cons_self⟩
  have hcall := respond_tree languageFiles hread rfl
  have hbad := (respond_tree languageFiles hreadBad rfl).2.2 <| by
    rintro ⟨s, g, write, h⟩
    have hformat := h.format
    rw [Except.ok.inj (h.settings.symm.trans hsettingsBad)] at hformat
    simp [FormatRegistry.writers] at hformat
  obtain ⟨houtput, hsame⟩ := hcall.2.1 s g _ hshows
  exact ⟨i, i', s, s', g, hread, hread', rfl, rfl, hshows, hshows', rfl, rfl,
    hcall.1.2 ⟨s, g, _, hshows⟩, houtput,
    hsame languageFiles _ i' "g" none (some "json") none s' hread' rfl hshows' rfl,
    by decide +kernel, hbad⟩

end CommandLine

end GrammarExplorer
