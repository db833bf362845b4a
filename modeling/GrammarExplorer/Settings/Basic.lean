/-
The settings: how labels are displayed, what the viewer looks like, and what
is written out.
-/
namespace GrammarExplorer

structure DisplaySettings where
  /-- The id of a concrete grammar, or a language; empty for the names of the
  abstract functions. -/
  language : String
  /-- Stands between the linearizations of one function. -/
  linearizationSeparator : String
  /-- The category at the root of the tree; empty for the one the grammar
  starts with. -/
  startCategory : String
  deriving Repr, DecidableEq

structure ViewerSettings where
  treeWidth : Nat
  showIcons : Bool
  deriving Repr, DecidableEq

structure OutputSettings where
  format : String
  deriving Repr, DecidableEq

structure Settings where
  display : DisplaySettings
  viewer : ViewerSettings
  output : OutputSettings
  deriving Repr, DecidableEq

/-- What holds where no layer says anything. -/
def Settings.default : Settings where
  display := ⟨"", " | ", ""⟩
  viewer := ⟨40, true⟩
  output := ⟨"treeviz"⟩

namespace DisplaySettings

/-- A setting that is empty where nothing is set. -/
def set? (text : String) : Option String := if text == "" then none else some text

theorem set?_eq (text : String) : set? text = if text = "" then none else some text := by
  simp [set?]

def language? (d : DisplaySettings) : Option String := set? d.language

def startCategory? (d : DisplaySettings) : Option String := set? d.startCategory

end DisplaySettings

end GrammarExplorer
