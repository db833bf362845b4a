/-
Which layer has the say in a setting.

A layer of settings is a list of values for paths, whether it is a file or a
single setting. Single settings are laid over all files, wherever they stand. So
it is the last single setting that counts, else the last file, else the default
(`load_layers`), which is the last layer in the order of the layers only if no
single setting is followed by files that say something else (`InOrder`).
-/
import GrammarExplorer.Proofs.Settings.Setting

namespace GrammarExplorer.Settings

/-! ## Layers -/

/-- The path that the key of an entry of a file stands for: the one that it
writes, or else the key itself. -/
def pathOf (key : String) : Path :=
  match Path.read key with
  | .ok path => path
  | .error _ => ⟨key, []⟩

theorem layEntry_eq (v : Value) (entry : String × Value) :
    layEntry v entry = v.lay (pathOf entry.1) entry.2 := by
  unfold layEntry pathOf
  cases Path.read entry.1 <;> rfl

namespace Layer

/-- Whether the layer is a single setting and no file. -/
def isSingle : Layer → Bool
  | set _ _ => true
  | _ => false

/-- The values for paths that make up a layer, if it can be read. -/
def assignments? (files : Files) : Layer → Option (List (Path × Value))
  | set key value => (Path.read key).toOption.map fun path => [(path, .scalar none value)]
  | layer => (layerEntries files layer).toOption.map (·.map fun e => (pathOf e.1, e.2))

def assignments (files : Files) (l : Layer) : List (Path × Value) := (l.assignments? files).getD []

/-- Whether a layer can be read, and what it says of any setting does for that
setting. It may say whatever else it likes. -/
def wellTyped (files : Files) (l : Layer) : Bool :=
  (l.assignments? files).any (·.all fun a => Setting.all.all fun k => k.suits a.1 a.2)

/-- What a layer says of a setting. -/
def told (files : Files) (k : Setting) (l : Layer) : List Value :=
  (l.assignments files).flatMap fun a => k.told a.1 a.2

variable {files : Files} {l : Layer}

theorem wellTyped_iff : l.wellTyped files = true ↔ ∃ assignments,
    l.assignments? files = some assignments ∧ ∀ k : Setting, ∀ a ∈ assignments, k.suits a.1 a.2 := by
  have hall : ∀ a : Path × Value, (Setting.all.all fun k => k.suits a.1 a.2) = true ↔
      ∀ k : Setting, k.suits a.1 a.2 = true := fun a => by
    rw [List.all_eq_true]
    exact ⟨fun h k => h k k.mem_all, fun h k _ => h k⟩
  unfold wellTyped
  cases l.assignments? files with
  | none => simp
  | some assignments =>
    simp only [Option.any_some, List.all_eq_true (l := assignments), hall, Option.some.injEq,
      exists_eq_left']
    exact ⟨fun h k a ha => h a ha k, fun h a ha k => h k a ha⟩

theorem isSome_of_wellTyped (h : l.wellTyped files = true) : (l.assignments? files).isSome = true := by
  obtain ⟨assignments, hassignments, _⟩ := wellTyped_iff.1 h
  rw [hassignments]
  rfl

theorem assignments?_of_file (h : l.isSingle = false) : l.assignments? files =
    (layerEntries files l).toOption.map (·.map fun e => (pathOf e.1, e.2)) := by
  cases l with
  | set key value => cases h
  | file name => rfl
  | optionalFile name => rfl

theorem assignments?_set (files : Files) (k : Setting) (value : Scalar) :
    (set k.key value).assignments? files =
      some [(⟨k.shape.key, [.key k.field]⟩, .scalar none value)] := by
  rw [assignments?, k.read_key]
  rfl

/-- A single setting under the key of a setting is about that one only. -/
theorem told_set (files : Files) (k k' : Setting) (value : Scalar) :
    (set k'.key value).told files k = if k' = k then [.scalar none value] else [] := by
  rw [told, assignments, assignments?_set, Option.getD_some, List.flatMap_singleton]
  exact Setting.told_of_told? (Setting.told?_key k k' _)

theorem wellTyped_set (files : Files) {k : Setting} {value : Scalar}
    (h : k.accepts (.scalar none value) = true) : (set k.key value).wellTyped files = true := by
  refine wellTyped_iff.2 ⟨_, assignments?_set files k value, fun k' a ha => ?_⟩
  rw [List.mem_singleton.1 ha]
  refine Setting.suits_iff.2 ⟨_, Setting.told?_key k' k _, fun u hu => ?_⟩
  split at hu
  · next heq =>
    rw [List.mem_singleton.1 hu, ← heq]
    exact h
  · cases hu

end Layer

/-- What some layers say of a setting, one thing after the other. -/
def said (files : Files) (layers : List Layer) (k : Setting) : List Value :=
  layers.flatMap (·.told files k)

/-- The layers in the order in which they are laid: first all files, then all
single settings. -/
def arranged (layers : List Layer) : List Layer :=
  layers.filter (!·.isSingle) ++ layers.filter (·.isSingle)

section Load

variable {files : Files} {layers : List Layer}

theorem mem_arranged {l : Layer} : l ∈ arranged layers ↔ l ∈ layers := by
  cases h : l.isSingle <;> simp [arranged, h]

theorem overrides_eq_ok (h : ∀ l ∈ layers, (l.assignments? files).isSome = true) :
    ∃ single, overrides layers = .ok single ∧
      (single.map fun a => (a.1, Value.scalar none a.2)) =
        (layers.filter (·.isSingle)).flatMap (·.assignments files) := by
  induction layers with
  | nil => exact ⟨[], rfl, rfl⟩
  | cons l rest ih =>
    rw [List.forall_mem_cons] at h
    obtain ⟨single, hsingle, hmap⟩ := ih h.2
    cases l with
    | file name => exact ⟨single, hsingle, hmap⟩
    | optionalFile name => exact ⟨single, hsingle, hmap⟩
    | set key value =>
      cases hpath : Path.read key with
      | error fault =>
        -- A single setting without a path cannot be read.
        have hnone : (Layer.set key value).assignments? files = none := by
          rw [Layer.assignments?, hpath]
          rfl
        rw [hnone] at h
        cases h.1
      | ok path =>
        refine ⟨(path, value) :: single, by rw [overrides, hpath, hsingle]; rfl, ?_⟩
        have hassignments : (Layer.set key value).assignments files =
            [(path, .scalar none value)] := by
          rw [Layer.assignments, Layer.assignments?, hpath]
          rfl
        rw [List.filter_cons_of_pos (by rfl), List.flatMap_cons, hassignments, List.map_cons, hmap]
        rfl

theorem layFile_eq_map (files : Files) (v : Value) (l : Layer) :
    layFile files v l = (layerEntries files l).map (·.foldl layEntry v) :=
  bind_ok_eq_map _ _

theorem layFile_eq_ok {l : Layer} (h : (l.assignments? files).isSome = true)
    (hfile : l.isSingle = false) (v : Value) :
    layFile files v l = .ok (v.layEach (l.assignments files)) := by
  rw [layFile_eq_map, Layer.assignments]
  rw [Layer.assignments?_of_file hfile] at h ⊢
  cases hread : layerEntries files l with
  | error e =>
    rw [hread] at h
    cases h
  | ok entries =>
    have hlay : entries.foldl layEntry v = v.layEach (entries.map fun e => (pathOf e.1, e.2)) := by
      rw [Value.layEach, List.foldl_map]
      congr 1
      funext v e
      exact layEntry_eq v e
    exact congrArg Except.ok hlay

theorem foldlM_layFile (h : ∀ l ∈ layers, (l.assignments? files).isSome = true) (v : Value) :
    layers.foldlM (layFile files) v =
      .ok (v.layEach ((layers.filter (!·.isSingle)).flatMap (·.assignments files))) := by
  induction layers generalizing v with
  | nil => rfl
  | cons l rest ih =>
    rw [List.forall_mem_cons] at h
    cases hsingle : l.isSingle with
    | true =>
      -- Among the files a single setting is an empty one.
      have hsame : layFile files v l = .ok v := by
        cases l with
        | set key value => rfl
        | file name => cases hsingle
        | optionalFile name => cases hsingle
      rw [List.foldlM_cons, hsame, List.filter_cons_of_neg (by simp [hsingle])]
      exact ih h.2 v
    | false =>
      rw [List.foldlM_cons, layFile_eq_ok h.1 hsingle, List.filter_cons_of_pos (by simp [hsingle]),
        List.flatMap_cons, Value.layEach_append]
      exact ih h.2 _

/-- Layers that can be read are laid over the defaults, the files below the
single settings. -/
theorem load_eq_decode (h : ∀ l ∈ layers, (l.assignments? files).isSome = true) :
    load files layers = decode
      ((encode .default).layEach ((arranged layers).flatMap (·.assignments files))) := by
  obtain ⟨single, hsingle, hmap⟩ := overrides_eq_ok h
  have hlay : ∀ below : Value, below.layEach (single.map fun a => (a.1, .scalar none a.2)) =
      single.foldl (fun v a => v.lay a.1 (.scalar none a.2)) below := fun below => by
    rw [Value.layEach, List.foldl_map]
  rw [arranged, List.flatMap_append, Value.layEach_append, ← hmap, hlay, load, hsingle]
  simp only [bind, Except.bind, foldlM_layFile h]

section WellTyped

variable (h : ∀ l ∈ layers, l.wellTyped files = true) (k : Setting)

include h

theorem suits_of_wellTyped :
    ∀ a ∈ layers.flatMap (·.assignments files), k.suits a.1 a.2 = true := by
  intro a ha
  obtain ⟨l, hl, ha⟩ := List.mem_flatMap.1 ha
  obtain ⟨assignments, hassignments, hsuits⟩ := Layer.wellTyped_iff.1 (h l hl)
  rw [Layer.assignments, hassignments] at ha
  exact hsuits k a ha

theorem accepts_of_mem_said {u : Value} (hu : u ∈ said files layers k) : k.accepts u = true := by
  obtain ⟨l, hl, hu⟩ := List.mem_flatMap.1 hu
  obtain ⟨a, ha, hu⟩ := List.mem_flatMap.1 hu
  have hsuits := suits_of_wellTyped h k a (List.mem_flatMap.2 ⟨l, hl, ha⟩)
  obtain ⟨us, htold, hus⟩ := Setting.suits_iff.1 hsuits
  exact hus u (Setting.told_of_told? htold ▸ hu)

/-- The raw settings that layers make have of a setting what the layers say
last, or the default. -/
theorem at?_layers :
    ((encode .default).layEach (layers.flatMap (·.assignments files))).at? k =
      (said files layers k).getLast?.or ((encode .default).at? k) := by
  rw [Value.at?_layEach (suits_of_wellTyped h k), List.flatMap_assoc]
  rfl

/-- If these are decoded, and the layers are laid in their order, each setting
is what the last layer says of it, or the default. -/
theorem exists_decode_layers :
    ∃ s, decode ((encode .default).layEach (layers.flatMap (·.assignments files))) = .ok s ∧
      ∀ k, k.outcome (said files layers k).getLast? = some (s.get k) := by
  obtain ⟨s, hs, hget⟩ := exists_decode
    (fun k => (sectioned_default k).layEach (suits_of_wellTyped h k)) (fun k => by
      rw [at?_layers h]
      cases hlast : (said files layers k).getLast? with
      | some u => exact ⟨u, rfl, accepts_of_mem_said h k (List.mem_of_getLast? hlast)⟩
      | none =>
        obtain ⟨u, hu, hdefault⟩ := at?_default k
        exact ⟨u, hu, Setting.accepts_iff.2 ⟨_, hdefault⟩⟩)
  refine ⟨s, hs, fun k => ?_⟩
  have hk := hget k
  rw [at?_layers h] at hk
  cases hlast : (said files layers k).getLast? with
  | some u =>
    rw [hlast] at hk
    rw [Setting.outcome, hk u rfl]
    rfl
  | none =>
    rw [hlast] at hk
    obtain ⟨u, hu, hdefault⟩ := at?_default k
    rw [Setting.outcome, Except.ok.inj ((hk u hu).symm.trans hdefault)]

/-- **Who has the say.** Layers that can be read, and that say of the settings
what does for them, make settings. Each setting is what the last single setting
says of it, or else the last file, or else the default. -/
theorem exists_load :
    ∃ s, load files layers = .ok s ∧
      ∀ k, k.outcome (said files (arranged layers) k).getLast? = some (s.get k) := by
  rw [load_eq_decode fun l hl => Layer.isSome_of_wellTyped (h l hl)]
  exact exists_decode_layers fun l hl => h l (mem_arranged.1 hl)

end WellTyped

/-! ## The order of the layers -/

/-- Whether the order of the layers decides on a setting: no single setting says
anything of it, or a single setting is the last layer that does. -/
def InOrder (files : Files) (layers : List Layer) (k : Setting) : Prop :=
  (∀ l ∈ layers, l.isSingle = true → l.told files k = []) ∨
    ∃ before l after, layers = before ++ l :: after ∧ l.isSingle = true ∧
      l.told files k ≠ [] ∧ ∀ later ∈ after, later.told files k = []

theorem said_append (files : Files) (earlier later : List Layer) (k : Setting) :
    said files (earlier ++ later) k = said files earlier k ++ said files later k :=
  List.flatMap_append

theorem said_eq_nil {k : Setting} (h : ∀ l ∈ layers, l.told files k = []) :
    said files layers k = [] :=
  List.flatMap_eq_nil_iff.2 h

/-- Layers that say nothing of a setting can be left out. -/
theorem said_filter {k : Setting} {p : Layer → Bool}
    (h : ∀ l ∈ layers, p l = false → l.told files k = []) :
    said files (layers.filter p) k = said files layers k := by
  induction layers with
  | nil => rfl
  | cons l rest ih =>
    rw [List.forall_mem_cons] at h
    cases hp : p l with
    | true =>
      rw [List.filter_cons_of_pos hp]
      exact congrArg (l.told files k ++ ·) (ih h.2)
    | false =>
      rw [List.filter_cons_of_neg (by simp [hp]), ih h.2]
      exact (congrArg (· ++ said files rest k) (h.1 hp)).symm

/-- The last layer that says something of a setting has the last word. -/
theorem getLast?_said {k : Setting} {before after : List Layer} {l : Layer}
    (htold : l.told files k ≠ []) (hafter : ∀ later ∈ after, later.told files k = []) :
    (said files (before ++ l :: after) k).getLast? = (l.told files k).getLast? := by
  obtain ⟨u, hu⟩ := Option.isSome_iff_exists.1 (List.getLast?_isSome.2 htold)
  have hl : said files (l :: after) k = l.told files k ++ said files after k := rfl
  rw [said_append, hl, said_eq_nil hafter, List.append_nil, List.getLast?_append, hu]
  rfl

theorem InOrder.getLast?_arranged {k : Setting} (h : InOrder files layers k) :
    (said files (arranged layers) k).getLast? = (said files layers k).getLast? := by
  rw [arranged, said_append]
  obtain hnone | ⟨before, l, after, rfl, hsingle, htold, hafter⟩ := h
  · have hsingles : said files (layers.filter (·.isSingle)) k = [] :=
      said_eq_nil fun l hl => hnone l (List.mem_of_mem_filter hl) (List.mem_filter.1 hl).2
    rw [hsingles, List.append_nil, said_filter]
    intro l hl hp
    exact hnone l hl (by simpa using hp)
  · -- In either order the layers behind the last single setting say nothing.
    have harranged : arranged (before ++ l :: after) =
        ((before ++ l :: after).filter (!·.isSingle) ++ before.filter (·.isSingle)) ++
          l :: after.filter (·.isSingle) := by
      simp [arranged, hsingle]
    rw [← said_append, ← arranged, harranged, getLast?_said htold hafter, getLast?_said htold]
    exact fun later hlater => hafter later (List.mem_of_mem_filter hlater)

/-- **Later layers win, single settings first.** Take any layers, files and
single settings in any order, that can be read and say of the settings what does
for them. They make settings, in which every setting is what the last single
setting says of it, or else the last file, or else the default. This is what the
last of all layers says of it, wherever no single setting says anything of it or
the last layer to do so is a single setting. -/
theorem load_layers (files : Files) {layers : List Layer}
    (h : ∀ l ∈ layers, l.wellTyped files = true) :
    ∃ s, load files layers = .ok s ∧ ∀ k,
      k.outcome (said files (arranged layers) k).getLast? = some (s.get k) ∧
      (InOrder files layers k → k.outcome (said files layers k).getLast? = some (s.get k)) := by
  obtain ⟨s, hs, houtcome⟩ := exists_load h
  refine ⟨s, hs, fun k => ⟨houtcome k, fun horder => ?_⟩⟩
  rw [← horder.getLast?_arranged]
  exact houtcome k

/-- Two files that each say something of two sections. -/
def twoFiles : Files :=
  ⟨[("a.toml", "display.language = \"A\"\n[viewer]\ntree_width = 60".toUTF8),
    ("b.toml", "[display]\nlanguage = \"B\"\n[viewer]\nshow_icons = false".toUTF8)]⟩

/-- They are laid with single settings between them. -/
def mixedLayers : List Layer :=
  [.optionalFile "none.toml", .file "a.toml", .set "viewer.tree_width" (.integer 20),
    .optionalFile "b.toml", .set "display.language" (.text "C")]

theorem load_layers_mixed : (∀ l ∈ mixedLayers, l.wellTyped twoFiles = true) ∧
    InOrder twoFiles mixedLayers .language ∧
    ∃ s, load twoFiles mixedLayers = .ok s ∧
      (∀ k, k.outcome (said twoFiles (arranged mixedLayers) k).getLast? = some (s.get k)) ∧
      Setting.language.outcome (said twoFiles mixedLayers .language).getLast?
        = some s.display.language ∧
      s = ⟨⟨"C", " | ", ""⟩, ⟨20, false⟩, ⟨"treeviz"⟩⟩ := by
  have htyped : ∀ l ∈ mixedLayers, l.wellTyped twoFiles = true := by decide +kernel
  have horder : InOrder twoFiles mixedLayers .language := by
    refine .inr ⟨mixedLayers.dropLast, .set "display.language" (.text "C"), [], rfl, rfl, ?_, ?_⟩
    · exact List.ne_nil_of_length_pos (by decide +kernel)
    · simp
  have hload : load twoFiles mixedLayers = .ok ⟨⟨"C", " | ", ""⟩, ⟨20, false⟩, ⟨"treeviz"⟩⟩ :=
    toOption_eq_some_iff.1 (by decide +kernel)
  obtain ⟨s, hs, hall⟩ := load_layers twoFiles htyped
  exact ⟨htyped, horder, s, hs, fun k => (hall k).1, (hall .language).2 horder,
    Except.ok.inj (hs.symm.trans hload)⟩

/-- A file does not win over a single setting in front of it, though it is the
last layer to say something. -/
theorem file_behind_single :
    let layers : List Layer := [.set "display.language" (.text "A"), .file "b.toml"]
    (∀ l ∈ layers, l.wellTyped twoFiles = true) ∧
      ¬∃ s, load twoFiles layers = .ok s ∧
        ∀ k, k.outcome (said twoFiles layers k).getLast? = some (s.get k) := by
  intro layers
  have hload : load twoFiles layers = .ok ⟨⟨"A", " | ", ""⟩, ⟨40, false⟩, ⟨"treeviz"⟩⟩ :=
    toOption_eq_some_iff.1 (by decide +kernel)
  have hlast : Setting.language.outcome (said twoFiles layers .language).getLast?
      = some (Settings.get ⟨⟨"B", " | ", ""⟩, ⟨40, false⟩, ⟨"treeviz"⟩⟩ .language) := by
    decide +kernel
  refine ⟨by decide +kernel, fun ⟨s, hs, houtcome⟩ => ?_⟩
  have hlanguage := hlast.symm.trans (houtcome .language)
  rw [Except.ok.inj (hs.symm.trans hload)] at hlanguage
  exact absurd hlanguage (by decide)

end Load

end GrammarExplorer.Settings
