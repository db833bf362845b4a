/-
Where the settings of a command come from.

The layers of an invocation are the file of the directory, the file it names,
and its flags, in this order and with the single settings last, so that here the
last layer has the last word (`arranged_layers`). A flag says something of one
setting only (`said_commandLayers`). A file of the directory that is not there
is a layer that says nothing; a named file that is not there is an error, for
those commands that read the settings at all.
-/
import GrammarExplorer.Proofs.CommandLine.Tree
import GrammarExplorer.Proofs.Settings.Layers

namespace GrammarExplorer.CommandLine

open Settings (Layer Value load locate? said arranged)

/-- The value that a flag of the command gives a setting, if there is such a
flag and it is given. -/
def Command.flag? : Command → Setting → Option String
  | .tree _ language _ _, .language => language
  | .tree _ _ format _, .format => format
  | .tree _ _ _ category, .startCategory => category
  | .alternatives _ _ language, .language => language
  | .view _ language, .language => language
  | _, _ => none

/-- Whether the command reads the settings. -/
def Command.readsSettings : Command → Bool
  | .languages _ => false
  | .listFormats => false
  | _ => true

/-- The file of the directory as a layer. -/
def directoryLayer : Layer := .optionalFile "treevis.toml"

/-- The file that an invocation names, if any, as a layer. -/
def namedLayers (i : Invocation) : List Layer := (i.config.map Layer.file).toList

/-- The text of a flag as a value. -/
def flagValue (text : String) : Value := .scalar none (.text text)

variable {files : Files} {i : Invocation} {name : String}

/-! ## Flags -/

theorem said_flagLayer (files : Files) (k k' : Setting) (text : Option String) :
    said files (flagLayer k'.key text) k =
      if k' = k then (text.map flagValue).toList else [] := by
  cases text with
  | none => simp [flagLayer, said]
  | some text =>
    rw [flagLayer, said, List.flatMap_singleton, Layer.told_set]
    rfl

/-- The settings that have a flag. -/
def flagged : List Setting := [.language, .format, .startCategory]

theorem mem_flagged {k : Setting} :
    k ∈ flagged ↔ k = .language ∨ k = .format ∨ k = .startCategory := by
  simp [flagged]

theorem commandLayers_eq (c : Command) :
    commandLayers c = flagged.flatMap fun k => flagLayer k.key (c.flag? k) := by
  have hkeys : Setting.language.key = "display.language" ∧ Setting.format.key = "output.format" ∧
      Setting.startCategory.key = "display.start_category" := by decide
  rw [flagged, List.flatMap_cons, List.flatMap_cons, List.flatMap_singleton, hkeys.1, hkeys.2.1,
    hkeys.2.2]
  cases c with
  | tree path language format category =>
    exact List.append_assoc _ _ _
  | alternatives path category language => exact (List.append_nil _).symm
  | languages path => rfl
  | view path language => exact (List.append_nil _).symm
  | listFormats => rfl

theorem flag?_eq_none {c : Command} {k : Setting} (h : k ∉ flagged) : c.flag? k = none := by
  cases k <;> first | exact absurd (by decide) h | (cases c <;> rfl)

/-- A flag says something of its own setting only. -/
theorem said_commandLayers (files : Files) (c : Command) (k : Setting) :
    said files (commandLayers c) k = ((c.flag? k).map flagValue).toList := by
  rw [commandLayers_eq, said, List.flatMap_assoc]
  have hflag : ∀ k', (flagLayer k'.key (c.flag? k')).flatMap (·.told files k) =
      if k' = k then ((c.flag? k').map flagValue).toList else [] :=
    fun k' => said_flagLayer files k k' (c.flag? k')
  simp only [hflag]
  by_cases hk : k ∈ flagged
  · obtain rfl | rfl | rfl := mem_flagged.1 hk <;> simp [flagged]
  · rw [flag?_eq_none hk]
    simp only [mem_flagged, not_or] at hk
    simp [flagged, Ne.symm hk.1, Ne.symm hk.2.1, Ne.symm hk.2.2]

theorem exists_of_mem_commandLayers {c : Command} {l : Layer} (h : l ∈ commandLayers c) :
    ∃ k ∈ flagged, ∃ text, l = .set k.key (.text text) := by
  rw [commandLayers_eq] at h
  obtain ⟨k, hk, hl⟩ := List.mem_flatMap.1 h
  cases hflag : c.flag? k with
  | none =>
    rw [hflag] at hl
    cases hl
  | some text =>
    rw [hflag, flagLayer, List.mem_singleton] at hl
    exact ⟨k, hk, text, hl⟩

theorem isSingle_commandLayers {c : Command} {l : Layer} (h : l ∈ commandLayers c) :
    l.isSingle = true := by
  obtain ⟨k, _, text, rfl⟩ := exists_of_mem_commandLayers h
  rfl

/-- The settings with a flag take any text. -/
theorem wellTyped_commandLayers {c : Command} {l : Layer} (h : l ∈ commandLayers c) :
    l.wellTyped files = true := by
  obtain ⟨k, hk, text, rfl⟩ := exists_of_mem_commandLayers h
  refine Layer.wellTyped_set files ?_
  obtain rfl | rfl | rfl := mem_flagged.1 hk <;> rfl

/-! ## Layers -/

theorem layers_eq (i : Invocation) :
    layers i = directoryLayer :: (namedLayers i ++ commandLayers i.command) := by
  rw [layers, List.append_assoc]
  rfl

theorem isSingle_namedLayers {l : Layer} (h : l ∈ namedLayers i) : l.isSingle = false := by
  rw [namedLayers, Option.mem_toList, Option.map_eq_some_iff] at h
  obtain ⟨name, _, rfl⟩ := h
  rfl

/-- The flags come last anyway. -/
theorem arranged_layers (i : Invocation) : arranged (layers i) = layers i := by
  have hnamed : ∀ l ∈ directoryLayer :: namedLayers i, l.isSingle = false := by
    rw [List.forall_mem_cons]
    exact ⟨rfl, fun l hl => isSingle_namedLayers hl⟩
  have hflags : ∀ l ∈ commandLayers i.command, l.isSingle = true :=
    fun l hl => isSingle_commandLayers hl
  rw [layers_eq, ← List.cons_append, arranged, List.filter_append, List.filter_append]
  congr 1
  · rw [List.filter_eq_self.2 (by simpa using hnamed), List.filter_eq_nil_iff.2 (by simpa using hflags),
      List.append_nil]
  · rw [List.filter_eq_nil_iff.2 (by simpa using hnamed), List.filter_eq_self.2 hflags,
      List.nil_append]

/-- The last word on a setting: the flag has it, or else the named file, or else
the file of the directory. -/
theorem getLast?_said_layers (files : Files) (i : Invocation) (k : Setting) :
    (said files (layers i) k).getLast? = ((i.command.flag? k).map flagValue).or
      ((said files (namedLayers i) k).getLast?.or (directoryLayer.told files k).getLast?) := by
  have hdirectory : said files (layers i) k = directoryLayer.told files k ++
      said files (namedLayers i ++ commandLayers i.command) k := by
    rw [layers_eq]
    rfl
  rw [hdirectory, Settings.said_append, said_commandLayers, List.getLast?_append,
    List.getLast?_append, Option.or_assoc]
  cases i.command.flag? k <;> rfl

theorem exists_settings (hdirectory : directoryLayer.wellTyped files = true)
    (hnamed : ∀ name ∈ i.config, (Layer.file name).wellTyped files = true) :
    ∃ s, settings files i = .ok s ∧ ∀ k, k.outcome (((i.command.flag? k).map flagValue).or
      ((said files (namedLayers i) k).getLast?.or (directoryLayer.told files k).getLast?)) =
        some (s.get k) := by
  have htyped : ∀ l ∈ layers i, l.wellTyped files = true := by
    rw [layers_eq, List.forall_mem_cons]
    refine ⟨hdirectory, fun l hl => ?_⟩
    rcases List.mem_append.1 hl with hl | hl
    · rw [namedLayers, Option.mem_toList, Option.map_eq_some_iff] at hl
      obtain ⟨name, hname, rfl⟩ := hl
      exact hnamed name hname
    · exact wellTyped_commandLayers hl
  obtain ⟨s, hs, houtcome⟩ := Settings.exists_load htyped
  refine ⟨s, hs, fun k => ?_⟩
  rw [← getLast?_said_layers, ← arranged_layers]
  exact houtcome k

/-! ## Missing files -/

theorem fileEntries_of_missing (h : locate? files name = none) :
    Settings.fileEntries files name = .error (.fileNotFound name) := by
  rw [Settings.fileEntries, h]

theorem layerEntries_of_missing_directory (h : locate? files "treevis.toml" = none) :
    Settings.layerEntries files directoryLayer = .ok [] := by
  rw [directoryLayer, Settings.layerEntries, fileEntries_of_missing h]
  rfl

theorem wellTyped_of_missing_directory (h : locate? files "treevis.toml" = none) :
    directoryLayer.wellTyped files = true := by
  refine Layer.wellTyped_iff.2 ⟨[], ?_, fun k a ha => absurd ha List.not_mem_nil⟩
  rw [Layer.assignments?_of_file rfl, layerEntries_of_missing_directory h]
  rfl

/-- Without a file of the directory the settings are as if nobody had asked for
one. -/
theorem settings_of_missing_directory (h : locate? files "treevis.toml" = none) :
    settings files i = load files (namedLayers i ++ commandLayers i.command) := by
  have hlay : Settings.layFile files (Settings.encode .default) directoryLayer =
      .ok (Settings.encode .default) := by
    rw [Settings.layFile_eq_map, layerEntries_of_missing_directory h]
    rfl
  rw [settings, layers_eq, load, load, List.foldlM_cons, hlay]
  rfl

/-- Without the named file there are no settings. It is what is missed, unless
the file of the directory is of no use already. -/
theorem settings_of_missing_named (hname : name ∈ i.config)
    (h : locate? files name = none) : ∃ cause, settings files i = .error cause ∧
      (directoryLayer.wellTyped files = true → cause = .fileNotFound name) := by
  have hflags : ∀ l ∈ commandLayers i.command, (l.assignments? files).isSome = true :=
    fun l hl => Layer.isSome_of_wellTyped (wellTyped_commandLayers hl)
  obtain ⟨single, hsingle, _⟩ := Settings.overrides_eq_ok hflags
  have hlayers : layers i = directoryLayer :: .file name :: commandLayers i.command := by
    rw [layers_eq, namedLayers, Option.mem_def.1 hname]
    rfl
  have hoverrides : Settings.overrides (layers i) = .ok single := by
    rw [hlayers]
    exact hsingle
  have hnamed : ∀ v, Settings.layFile files v (.file name) = .error (.fileNotFound name) := by
    intro v
    rw [Settings.layFile_eq_map, Settings.layerEntries, fileEntries_of_missing h]
    rfl
  rw [settings, load, hoverrides, hlayers, List.foldlM_cons, Settings.layFile_eq_map]
  cases hread : Settings.layerEntries files directoryLayer with
  | error cause =>
    -- The file of the directory comes first, so its fault is the one that is told.
    refine ⟨cause, rfl, fun htyped => ?_⟩
    have hreadable := Layer.isSome_of_wellTyped htyped
    rw [Layer.assignments?_of_file rfl, hread] at hreadable
    cases hreadable
  | ok entries =>
    simp only [Except.map, bind, Except.bind, List.foldlM_cons, hnamed]
    exact ⟨_, rfl, fun _ => rfl⟩

/-! ## Commands -/

theorem run_of_settings_error {cause : SettingsError} (hreads : i.command.readsSettings = true)
    (h : settings files i = .error cause) : run files i = ⟨[], .error (.settings cause)⟩ := by
  obtain ⟨config, verbose, command⟩ := i
  cases command with
  | tree path language format category => simp only [run, h]
  | alternatives path category language => simp only [run, h]
  | view path language => simp only [run, h]
  | languages path => cases hreads
  | listFormats => cases hreads

/-- The commands that do not read the settings do not look for the named file
either. -/
theorem run_with_config (hreads : i.command.readsSettings = false) (config : Option String) :
    run files { i with config } = run files i := by
  obtain ⟨named, verbose, command⟩ := i
  cases command with
  | tree path language format category => cases hreads
  | alternatives path category language => cases hreads
  | view path language => cases hreads
  | languages path => rfl
  | listFormats => rfl

/-- **Where the settings come from.** Take any call of the program. If the file
of the directory, when there is one, and the named file, when one is named, can
be read and say of the settings what does for them, the settings can be had.
Each is what its flag says, or else the named file, or else the file of the
directory, or else the default; the category that alternatives are listed for is
no flag. If the named file is missing, a command that reads the settings fails,
and for no other reason if the file of the directory is in order; the other
commands do the same whatever file is named. A missing file of the directory
makes no difference. -/
theorem respond_settings (files : Files) {arguments : List String}
    (hread : read arguments = .ok i) :
    (directoryLayer.wellTyped files = true →
      (∀ name ∈ i.config, (Layer.file name).wellTyped files = true) →
      ∃ s, settings files i = .ok s ∧
        (∀ k, k.outcome (((i.command.flag? k).map flagValue).or
          ((said files (namedLayers i) k).getLast?.or (directoryLayer.told files k).getLast?)) =
            some (s.get k)) ∧
        (∀ language ∈ i.command.flag? .language, s.display.language = language) ∧
        (∀ format ∈ i.command.flag? .format, s.output.format = format) ∧
        (∀ category ∈ i.command.flag? .startCategory, s.display.startCategory = category) ∧
        (∀ path category language, i.command = .alternatives path category language →
          Setting.startCategory.outcome ((said files (namedLayers i) .startCategory).getLast?.or
            (directoryLayer.told files .startCategory).getLast?) =
              some s.display.startCategory)) ∧
    (∀ name ∈ i.config, locate? files name = none →
      (i.command.readsSettings = true → ∃ cause, settings files i = .error cause ∧
        respond files arguments = ⟨1, "", "Error: " ++ cause.message ++ "\n"⟩ ∧
        (directoryLayer.wellTyped files = true → cause = .fileNotFound name)) ∧
      (i.command.readsSettings = false → ∀ config, run files { i with config } = run files i)) ∧
    (locate? files "treevis.toml" = none → directoryLayer.wellTyped files = true ∧
      settings files i = load files (namedLayers i ++ commandLayers i.command)) := by
  refine ⟨fun hdirectory hnamed => ?_, fun name hname hmissing => ⟨fun hreads => ?_, ?_⟩,
    fun hmissing => ⟨?_, settings_of_missing_directory hmissing⟩⟩
  · obtain ⟨s, hs, houtcome⟩ := exists_settings hdirectory hnamed
    have hflag : ∀ k text, text ∈ i.command.flag? k →
        k.outcome (some (flagValue text)) = some (s.get k) := by
      intro k text htext
      have hk := houtcome k
      rwa [Option.mem_def.1 htext, Option.map_some, Option.some_or] at hk
    refine ⟨s, hs, houtcome, fun language h => ?_, fun format h => ?_, fun category h => ?_,
      fun path category language hcommand => ?_⟩
    · exact (Option.some.inj (hflag _ _ h)).symm
    · exact (Option.some.inj (hflag _ _ h)).symm
    · exact (Option.some.inj (hflag _ _ h)).symm
    · have hstart := houtcome .startCategory
      rw [hcommand] at hstart
      exact hstart
  · obtain ⟨cause, hcause, hnotFound⟩ := settings_of_missing_named hname hmissing
    refine ⟨cause, hcause, ?_, hnotFound⟩
    rw [respond_of_read hread, run_of_settings_error hreads hcause]
    have hlog : logText i.verbose [] = "" := rfl
    simp only [Report.ending, hlog, String.empty_append, Failure.message]
  · exact fun hreads config => run_with_config hreads config
  · exact wellTyped_of_missing_directory hmissing

/-- A grammar, a file of the directory, and a file to be named. -/
def settingFiles : Files :=
  ⟨[("g", "\x7b\"abstract\":\x7b\"startcat\":\"S\",\"funs\":\x7b\x7d\x7d\x7d".toUTF8),
    ("treevis.toml", ("[display]\nlanguage = \"A\"\nlinearization_separator = \"+\"\n"
      ++ "start_category = \"T\"").toUTF8),
    ("c.toml", "[viewer]\ntree_width = 60\n[display]\nstart_category = \"U\"".toUTF8)]⟩

theorem respond_settings_layered :
    let chained : Invocation := ⟨some "c.toml", false, .alternatives "g" "S" (some "L")⟩
    let missing : Invocation := ⟨some "d", false, .tree "g" none none none⟩
    read ["alternatives", "g", "S", "-c", "c.toml", "-l", "L"] = .ok chained ∧
      directoryLayer.wellTyped settingFiles = true ∧
      (∀ name ∈ chained.config, (Layer.file name).wellTyped settingFiles = true) ∧
      settings settingFiles chained = .ok ⟨⟨"L", "+", "U"⟩, ⟨60, true⟩, ⟨"treeviz"⟩⟩ ∧
      (∃ s, settings settingFiles chained = .ok s ∧ s.display.language = "L") ∧
      read ["show", "g", "-c", "d"] = .ok missing ∧ locate? settingFiles "d" = none ∧
      respond settingFiles ["show", "g", "-c", "d"] =
        ⟨1, "", "Error: configuration file \"d\" not found\n"⟩ := by
  intro chained missing
  have hchained : read ["alternatives", "g", "S", "-c", "c.toml", "-l", "L"] = .ok chained :=
    toOption_eq_some_iff.1 (by decide +kernel)
  have hmissing : read ["show", "g", "-c", "d"] = .ok missing :=
    toOption_eq_some_iff.1 (by decide +kernel)
  have hdirectory : directoryLayer.wellTyped settingFiles = true := by decide +kernel
  have hnamed : ∀ name ∈ chained.config, (Layer.file name).wellTyped settingFiles = true := by
    rintro name ⟨⟩
    decide +kernel
  have hsettings : settings settingFiles chained =
      .ok ⟨⟨"L", "+", "U"⟩, ⟨60, true⟩, ⟨"treeviz"⟩⟩ := toOption_eq_some_iff.1 (by decide +kernel)
  have hlocate : locate? settingFiles "d" = none := by decide +kernel
  obtain ⟨s, hs, _, hlanguage, _⟩ := (respond_settings settingFiles hchained).1 hdirectory hnamed
  obtain ⟨cause, _, hrespond, hcause⟩ :=
    ((respond_settings settingFiles hmissing).2.1 "d" rfl hlocate).1 rfl
  refine ⟨hchained, hdirectory, hnamed, hsettings, ⟨s, hs, hlanguage "L" rfl⟩, hmissing, hlocate, ?_⟩
  rw [hrespond, hcause hdirectory]
  decide

/-- A grammar, and a file whose name ends as those of TOML files do. -/
def endingFiles : Files :=
  ⟨[("g", "\x7b\"abstract\":\x7b\"startcat\":\"S\",\"funs\":\x7b\x7d\x7d\x7d".toUTF8),
    ("c.toml", "".toUTF8)]⟩

/-- A named file that is missing does no harm to a command that does not read
the settings, and one of the same name with the ending of TOML files will do in
its place. -/
theorem missing_file_passed_over :
    (∃ i, read ["list-formats", "-c", "c"] = .ok i ∧ i.config = some "c" ∧
      Files.bytes? ⟨[]⟩ "c" = none ∧ (respond ⟨[]⟩ ["list-formats", "-c", "c"]).code = 0) ∧
    (∃ i, read ["alternatives", "g", "S", "-c", "c"] = .ok i ∧ i.config = some "c" ∧
      endingFiles.bytes? "c" = none ∧
      (respond endingFiles ["alternatives", "g", "S", "-c", "c"]).code = 0) := by
  refine ⟨⟨⟨some "c", false, .listFormats⟩, toOption_eq_some_iff.1 (by decide +kernel), rfl, rfl, ?_⟩,
    ⟨⟨some "c", false, .alternatives "g" "S" none⟩, toOption_eq_some_iff.1 (by decide +kernel), rfl,
      by decide +kernel, ?_⟩⟩
  · decide +kernel
  · decide +kernel

end GrammarExplorer.CommandLine
