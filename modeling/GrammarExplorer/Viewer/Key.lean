/-
What keys do. A key is read as a request by the pane that has the focus; as
long as the menu has it, no key reaches the tree.
-/
import GrammarExplorer.Viewer.Basic

namespace GrammarExplorer

inductive KeyCode
  | up
  | down
  | left
  | right
  | enter
  | escape
  | tab
  | character (c : Char)
  /-- Any other key, by its name. -/
  | other (name : String)
  deriving Repr, DecidableEq

/-- A key, and the keys that were held with it. -/
structure Key where
  code : KeyCode
  control : Bool
  shift : Bool
  /-- Alt, or any further key of its sort. -/
  alt : Bool
  deriving Repr, DecidableEq

namespace Key

/-- The key by itself. -/
def plain (code : KeyCode) : Key := ⟨code, false, false, false⟩

/-- Whether no other key was held. -/
def isPlain (k : Key) : Bool := !k.control && !k.shift && !k.alt

/-- Whether the key ends the viewer, whatever has the focus. -/
def isQuit (k : Key) : Bool :=
  (k.code == .character 'q' && k.isPlain) || (k.code == .character 'c' && k.control)

end Key

/-- What a key asks for. -/
inductive Request
  | quit
  | moveTo (id : Nat)
  | flip (id : Nat)
  | offer (id : Nat)
  | highlight (option : Nat)
  | choose (id : Nat) (chosen : String)
  | dismiss
  | restore (id : Nat)
  | restoreAll
  | cycleLanguage
  deriving Repr, DecidableEq

namespace Viewer

variable (v : Viewer)

/-- What a key asks of the tree. -/
def treeRequest? (k : Key) : Option Request :=
  match k.code with
  | .up => (v.previous? v.selected).map .moveTo
  | .down => (v.next? v.selected).map .moveTo
  | .left => some (.flip v.selected)
  | .right => some (.flip v.selected)
  | .enter => some (.offer v.selected)
  | .character 'r' => if k.isPlain then some (.restore v.selected) else none
  | .character 'R' => if k.control then none else some .restoreAll
  | .character 'l' => if k.isPlain then some .cycleLanguage else none
  | _ => none

/-- What a key asks of the menu. Any key puts the focus right if there is no
menu. -/
def menuRequest? (k : Key) : Option Request :=
  match v.menu with
  | none => some .dismiss
  | some menu =>
    match k.code with
    | .up => some (.highlight (v.highlighted - 1))
    | .down =>
      if v.highlighted + 1 < menu.options.length then some (.highlight (v.highlighted + 1))
      else none
    | .enter =>
      match menu.options[v.highlighted]? with
      | some chosen => some (.choose menu.node chosen)
      | none => some .dismiss
    | .escape => some .dismiss
    | _ => none

/-- What a key asks for. -/
def request? (k : Key) : Option Request :=
  if k.isQuit then some .quit
  else
    match v.focus with
    | .tree => v.treeRequest? k
    | .alternatives => v.menuRequest? k

/-- Does what was asked for. The focus goes to a menu that opens, and back
to the tree from one that closes. -/
def perform : Request → Viewer
  | .quit => { v with quitting := true }
  | .moveTo id => v.moveTo id
  | .flip id => v.flip id
  | .offer id =>
    let next := v.offer id
    if next.menu.isSome then { next with highlighted := 0, focus := .alternatives } else next
  | .highlight option => { v with highlighted := option }
  | .choose id chosen => { v.choose id chosen with focus := .tree }
  | .dismiss => { v.dismiss with focus := .tree }
  | .restore id => v.restore id
  | .restoreAll => v.restoreAll
  | .cycleLanguage => v.cycleLanguage

/-- What there is to say about a request. -/
def requestLog : Request → List Log.Record
  | .offer id => v.session.alternativesLog id
  | .choose id chosen => v.session.selectLog id chosen
  | .restore id => v.session.resetLog id
  | .restoreAll => v.session.resetAllLog
  | .cycleLanguage => v.session.setLanguageLog v.nextLanguage
  | _ => []

/-- Presses a key. -/
def press (k : Key) : Viewer :=
  match v.request? k with
  | some r => v.perform r
  | none => v

/-- Whether the screen has to be drawn again after a key: if it asked for
anything, and always while the menu has the focus. -/
def redraws (k : Key) : Bool := (v.request? k).isSome || v.focus == .alternatives

def pressLog (k : Key) : List Log.Record :=
  match v.request? k with
  | some r => v.requestLog r
  | none => []

/-- Presses keys one after the other. -/
def pressAll (keys : List Key) : Viewer := keys.foldl (fun v k => v.press k) v

end Viewer

end GrammarExplorer
