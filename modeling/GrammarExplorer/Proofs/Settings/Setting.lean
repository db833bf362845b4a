/-
The settings one by one, and what raw settings have for each of them.

What a value for a path says of a setting can be read off the path
(`Setting.told?`). Laid over raw settings, the value leaves of every setting what
it says last, or what was there before (`at?_lay`), and many values do as one
does (`at?_layEach`): to lay one section never takes away what was said in
another, or of another setting in the same. Raw settings that have something of
use for every setting are decoded to just that (`exists_decode`).
-/
import GrammarExplorer.Proofs.Except
import GrammarExplorer.Proofs.Settings.Merging

namespace GrammarExplorer

open Text (lowercase)

/-- The settings, one by one. -/
inductive Setting
  | language
  | separator
  | startCategory
  | treeWidth
  | showIcons
  | format
  deriving Repr, DecidableEq

namespace Setting

open Settings

def all : List Setting := [language, separator, startCategory, treeWidth, showIcons, format]

theorem mem_all (k : Setting) : k ∈ all := by
  cases k <;> decide

/-- The section that a setting is in. -/
def shape : Setting → SectionShape
  | language | separator | startCategory => displayShape
  | treeWidth | showIcons => viewerShape
  | format => outputShape

/-- The name of a setting in its section. -/
def field : Setting → String
  | language => "language"
  | separator => "linearization_separator"
  | startCategory => "start_category"
  | treeWidth => "tree_width"
  | showIcons => "show_icons"
  | format => "format"

def key (k : Setting) : String := k.shape.key ++ "." ++ k.field

/-- What a setting is. -/
def Kind : Setting → Type
  | treeWidth => Nat
  | showIcons => Bool
  | _ => String

instance : (k : Setting) → DecidableEq k.Kind
  | language => inferInstanceAs (DecidableEq String)
  | separator => inferInstanceAs (DecidableEq String)
  | startCategory => inferInstanceAs (DecidableEq String)
  | treeWidth => inferInstanceAs (DecidableEq Nat)
  | showIcons => inferInstanceAs (DecidableEq Bool)
  | format => inferInstanceAs (DecidableEq String)

end Setting

/-- A setting of some settings. -/
def Settings.get (s : Settings) : (k : Setting) → k.Kind
  | .language => s.display.language
  | .separator => s.display.linearizationSeparator
  | .startCategory => s.display.startCategory
  | .treeWidth => s.viewer.treeWidth
  | .showIcons => s.viewer.showIcons
  | .format => s.output.format

namespace Setting

open Settings

variable {k : Setting} {u : Value}

def decoder : (k : Setting) → Decoder k.Kind
  | language => decodeText
  | separator => decodeText
  | startCategory => decodeText
  | treeWidth => decodeSmallNat
  | showIcons => decodeBoolean
  | format => decodeText

/-- Whether a value does for a setting. -/
def accepts (k : Setting) (u : Value) : Bool := (k.decoder k.key u).isOk

/-- What a setting is if this is the value for it, if any. Without one it is
the default. -/
def outcome (k : Setting) : Option Value → Option k.Kind
  | some u => (k.decoder k.key u).toOption
  | none => some (Settings.default.get k)

/-- What a value for a path says of a setting, one thing after the other. There
is no answer if the value would stand in the place of the section, or be put
inside the setting. -/
def told? (k : Setting) (path : Path) (new : Value) : Option (List Value) :=
  if lowercase path.first ≠ k.shape.key then some []
  else
    match path.rest with
    | [] => if new.isTable then some (Value.under k.field new.entries) else none
    | .key name :: rest =>
      if lowercase name ≠ k.field then some []
      else if rest.isEmpty then some [new] else none
    | .position _ :: _ => none

/-- Whether a value for a path says of a setting only what does for it. -/
def suits (k : Setting) (path : Path) (new : Value) : Bool :=
  (k.told? path new).any (·.all k.accepts)

/-- What a value for a path says of a setting, if there is an answer. -/
def told (k : Setting) (path : Path) (new : Value) : List Value := (k.told? path new).getD []

theorem lowercase_section (k : Setting) : lowercase k.shape.key = k.shape.key := by
  cases k <;> decide

theorem lowercase_field (k : Setting) : lowercase k.field = k.field := by
  cases k <;> decide

/-- The key of a setting leads into its section. -/
theorem read_key (k : Setting) : Path.read k.key = .ok ⟨k.shape.key, [.key k.field]⟩ :=
  toOption_eq_some_iff.1 (by cases k <;> decide +kernel)

/-- A value for the key of a setting is about that setting only. -/
theorem told?_key (k k' : Setting) (new : Value) :
    k.told? ⟨k'.shape.key, [.key k'.field]⟩ new = some (if k' = k then [new] else []) := by
  have hdiffer : k'.shape.key = k.shape.key → k'.field = k.field → k' = k := by
    cases k <;> cases k' <;> decide
  unfold told?
  simp only [lowercase_section, lowercase_field]
  by_cases heq : k' = k
  · simp [heq]
  · by_cases hsection : k'.shape.key = k.shape.key
    · simp [heq, hsection, mt (hdiffer hsection) heq]
    · simp [heq, hsection]

theorem accepts_iff : k.accepts u = true ↔ ∃ x, k.decoder k.key u = .ok x := by
  unfold accepts
  cases k.decoder k.key u <;> simp [Except.isOk, Except.toBool]

theorem suits_iff {path : Path} {new : Value} : k.suits path new = true ↔
    ∃ us, k.told? path new = some us ∧ ∀ u ∈ us, k.accepts u = true := by
  unfold suits
  cases k.told? path new <;> simp

theorem told_of_told? {path : Path} {new : Value} {us : List Value}
    (h : k.told? path new = some us) : k.told path new = us := by
  rw [told, h, Option.getD_some]

/-- What a value says of a setting, by where its path leads. -/
theorem told?_cases {path : Path} {new : Value} {us : List Value}
    (h : k.told? path new = some us) :
    (lowercase path.first ≠ lowercase k.shape.key ∧ us = []) ∨
      lowercase path.first = lowercase k.shape.key ∧
        ((∃ origin entries, path.rest = [] ∧ new = .table origin entries ∧
            us = Value.under k.field entries) ∨
          ∃ name rest, path.rest = .key name :: rest ∧
            (lowercase name ≠ lowercase k.field ∧ us = [] ∨
              lowercase name = lowercase k.field ∧ rest = [] ∧ us = [new])) := by
  have hsection := k.lowercase_section
  have hfield := k.lowercase_field
  unfold told? at h
  by_cases hfirst : lowercase path.first = k.shape.key
  · rw [if_neg (not_not.2 hfirst)] at h
    refine .inr ⟨hfirst.trans hsection.symm, ?_⟩
    split at h
    · next hrest =>
      cases new with
      | table origin entries => exact .inl ⟨origin, entries, hrest, rfl, (Option.some.inj h).symm⟩
      | scalar origin value => cases h
      | list origin items => cases h
    · next name rest hrest =>
      refine .inr ⟨name, rest, hrest, ?_⟩
      by_cases hname : lowercase name = k.field
      · rw [if_neg (not_not.2 hname)] at h
        split at h
        · next hlast =>
          exact .inr ⟨hname.trans hfield.symm, List.isEmpty_iff.1 hlast, (Option.some.inj h).symm⟩
        · cases h
      · rw [if_pos hname] at h
        exact .inl ⟨hfield.symm ▸ hname, (Option.some.inj h).symm⟩
    · cases h
  · rw [if_pos hfirst] at h
    exact .inl ⟨hsection.symm ▸ hfirst, (Option.some.inj h).symm⟩

/-- A single setting is never a table. -/
theorem isTable_of_accepts (h : k.accepts u = true) : u.isTable = false := by
  cases u with
  | table origin entries =>
    obtain ⟨x, hx⟩ := accepts_iff.1 h
    cases k <;> cases hx
  | scalar origin value => rfl
  | list origin items => rfl

end Setting

namespace Settings

/-! ## Raw settings -/

namespace Value

variable {k : Setting} {v new : Value} {path : Path} {us : List Value}

/-- What raw settings have for a setting. -/
def at? (v : Value) (k : Setting) : Option Value :=
  (v.get? k.shape.key).bind (·.get? k.field)

/-- Whether the section of a setting is there, as a table. -/
def Sectioned (v : Value) (k : Setting) : Prop :=
  ∃ found, v.get? k.shape.key = some found ∧ found.isTable = true

/-- **One value for a path.** Laid over raw settings, it leaves of a setting
what it says last, or what was there before. -/
theorem at?_lay (h : k.told? path new = some us) (hus : ∀ u ∈ us, k.accepts u = true) :
    (v.lay path new).at? k = us.getLast?.or (v.at? k) := by
  have hinside : ((v.get? k.shape.key).getD nil).get? k.field = v.at? k := by
    unfold at?
    cases v.get? k.shape.key <;> rfl
  unfold lay at?
  obtain ⟨hfirst, rfl⟩ | ⟨hfirst, ⟨origin, entries, hrest, rfl, rfl⟩ | ⟨name, rest, hrest, hname⟩⟩ :=
    Setting.told?_cases h
  · rw [get?_laySteps_of_ne hfirst]
    rfl
  · -- A table for the whole section, which is merged into it.
    have hmerged : ∀ u ∈ under k.field entries, u.isTable = false :=
      fun u hu => Setting.isTable_of_accepts (hus u hu)
    rw [hrest, laySteps, get?_layAt_table hfirst, Option.bind_some, get?_layAll hmerged]
    cases v.get? k.shape.key <;> rfl
  · rw [hrest, get?_laySteps_of_eq hfirst, Option.bind_some]
    obtain ⟨hname, rfl⟩ | ⟨hname, rfl, rfl⟩ := hname
    · rw [get?_laySteps_of_ne hname, hinside]
      rfl
    · rw [laySteps, layAt_of_not_table (Setting.isTable_of_accepts (hus new List.mem_cons_self)),
        get?_put_of_eq hname]
      rfl

theorem Sectioned.lay (hv : v.Sectioned k) (h : k.told? path new = some us) :
    (v.lay path new).Sectioned k := by
  obtain ⟨found, hfound, htable⟩ := hv
  unfold Value.lay Sectioned
  obtain ⟨hfirst, rfl⟩ | ⟨hfirst, ⟨origin, entries, hrest, rfl, rfl⟩ | ⟨name, rest, hrest, _⟩⟩ :=
    Setting.told?_cases h
  · rw [get?_laySteps_of_ne hfirst]
    exact ⟨found, hfound, htable⟩
  · rw [hrest, laySteps, get?_layAt_table hfirst, hfound]
    exact ⟨_, rfl, isTable_layAll htable entries⟩
  · rw [hrest, get?_laySteps_of_eq hfirst]
    exact ⟨_, rfl, isTable_laySteps⟩

/-- Values for paths, laid over raw settings one after the other. -/
def layEach (v : Value) (assignments : List (Path × Value)) : Value :=
  assignments.foldl (fun v a => v.lay a.1 a.2) v

theorem layEach_append (v : Value) (earlier later : List (Path × Value)) :
    v.layEach (earlier ++ later) = (v.layEach earlier).layEach later :=
  List.foldl_append

/-- **Many values for paths.** The last one that says something of a setting
counts. -/
theorem at?_layEach {assignments : List (Path × Value)}
    (h : ∀ a ∈ assignments, k.suits a.1 a.2 = true) :
    (v.layEach assignments).at? k =
      (assignments.flatMap fun a => k.told a.1 a.2).getLast?.or (v.at? k) := by
  induction assignments generalizing v with
  | nil => rfl
  | cons a rest ih =>
    rw [List.forall_mem_cons] at h
    obtain ⟨us, htold, hus⟩ := Setting.suits_iff.1 h.1
    have hrest : (v.layEach (a :: rest)).at? k = ((v.lay a.1 a.2).layEach rest).at? k := rfl
    rw [hrest, ih h.2, at?_lay htold hus, List.flatMap_cons, List.getLast?_append,
      Setting.told_of_told? htold, Option.or_assoc]

theorem Sectioned.layEach {assignments : List (Path × Value)} (hv : v.Sectioned k)
    (h : ∀ a ∈ assignments, k.suits a.1 a.2 = true) : (v.layEach assignments).Sectioned k := by
  induction assignments generalizing v with
  | nil => exact hv
  | cons a rest ih =>
    rw [List.forall_mem_cons] at h
    obtain ⟨us, htold, _⟩ := Setting.suits_iff.1 h.1
    exact ih (hv.lay htold) h.2

end Value

/-! ## Settings out of raw settings -/

theorem decode_setting {k : Setting} {found u : Value} (htable : found.isTable = true)
    (hu : found.get? k.field = some u) :
    k.shape.decode found k.field k.decoder = k.decoder k.key u := by
  cases found with
  | table origin entries =>
    unfold SectionShape.decode SectionShape.field
    rw [hu]
    rfl
  | scalar origin value => cases htable
  | list origin items => cases htable

/-- Raw settings that have something that does for every setting make settings,
which have just that. -/
theorem exists_decode {v : Value} (hsections : ∀ k, v.Sectioned k)
    (hvalues : ∀ k : Setting, ∃ u, v.at? k = some u ∧ k.accepts u = true) :
    ∃ s, decode v = .ok s ∧ ∀ k u, v.at? k = some u → k.decoder k.key u = .ok (s.get k) := by
  have hdecode : ∀ k : Setting, ∃ found x, v.get? k.shape.key = some found ∧
      k.shape.decode found k.field k.decoder = .ok x ∧
      ∀ u, v.at? k = some u → k.decoder k.key u = .ok x := by
    intro k
    obtain ⟨found, hfound, htable⟩ := hsections k
    obtain ⟨u, hu, haccepts⟩ := hvalues k
    obtain ⟨x, hx⟩ := Setting.accepts_iff.1 haccepts
    have hinside : found.get? k.field = some u := by
      rwa [Value.at?, hfound, Option.bind_some] at hu
    refine ⟨found, x, hfound, (decode_setting htable hinside).trans hx, fun u' hu' => ?_⟩
    rw [hu] at hu'
    exact Option.some.inj hu' ▸ hx
  choose found value hfound hdecode hvalue using hdecode
  let s : Settings := {
    display := ⟨value .language, value .separator, value .startCategory⟩
    viewer := ⟨value .treeWidth, value .showIcons⟩
    output := ⟨value .format⟩ }
  have hget : ∀ k, s.get k = value k := by
    intro k
    cases k <;> rfl
  refine ⟨s, ?_, fun k u hu => (hget k).symm ▸ hvalue k u hu⟩
  have hsection : ∀ k : Setting, sectionOf v k.shape.key = .ok (found k) := by
    intro k
    rw [sectionOf, hfound]
  -- The settings of one section are found in the same table.
  have hshared : ∀ k k' : Setting, k.shape = k'.shape → found k = found k' := by
    intro k k' hshape
    exact Except.ok.inj ((hsection k).symm.trans (hshape ▸ hsection k'))
  have hdisplay : decodeDisplay (found .language) = .ok s.display := by
    have hlanguage : displayShape.decode _ "language" decodeText = _ := hdecode .language
    have hseparator : displayShape.decode _ "linearization_separator" decodeText = _ :=
      hdecode .separator
    have hstart : displayShape.decode _ "start_category" decodeText = _ := hdecode .startCategory
    rw [hshared .separator .language rfl] at hseparator
    rw [hshared .startCategory .language rfl] at hstart
    rw [decodeDisplay, hlanguage, hseparator, hstart]
    rfl
  have hviewer : decodeViewer (found .treeWidth) = .ok s.viewer := by
    have hwidth : viewerShape.decode _ "tree_width" decodeSmallNat = _ := hdecode .treeWidth
    have hicons : viewerShape.decode _ "show_icons" decodeBoolean = _ := hdecode .showIcons
    rw [hshared .showIcons .treeWidth rfl] at hicons
    rw [decodeViewer, hwidth, hicons]
    rfl
  have houtput : decodeOutput (found .format) = .ok s.output := by
    have hformat : outputShape.decode _ "format" decodeText = _ := hdecode .format
    rw [decodeOutput, hformat]
    rfl
  have hread : sectionOf v "display" = _ ∧ sectionOf v "viewer" = _ ∧ sectionOf v "output" = _ :=
    ⟨hsection .language, hsection .treeWidth, hsection .format⟩
  rw [decode, hread.1, hread.2.1, hread.2.2]
  simp only [bind, Except.bind, hdisplay, hviewer, houtput]
  rfl

/-! ## The defaults -/

theorem sectioned_default (k : Setting) : (encode .default).Sectioned k := by
  cases k <;> exact ⟨_, rfl, rfl⟩

theorem at?_default (k : Setting) :
    ∃ u, (encode .default).at? k = some u ∧ k.decoder k.key u = .ok (Settings.default.get k) := by
  cases k <;> exact ⟨_, rfl, rfl⟩

end Settings

end GrammarExplorer
