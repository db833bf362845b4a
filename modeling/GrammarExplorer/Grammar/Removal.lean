/-
Reading a document by taking fields out of its objects. What is taken out
leaves a gap, and the last member moves there: after the first field the
others stand in another order.
-/
import GrammarExplorer.Grammar.Load

namespace GrammarExplorer

/-- Takes the member of a key out of an object, if there is one. -/
def Json.takeMember (key : String) :
    List (String × Json) → Option Json × List (String × Json)
  | [] => (none, [])
  | m :: rest =>
    if m.1 == key then
      (some m.2, match rest.getLast? with
        | none => []
        | some last => last :: rest.dropLast)
    else
      let (found, left) := takeMember key rest
      (found, m :: left)

namespace Document

open Json

/-- The abstract grammar, whose fields are taken out one by one. -/
def abstractByRemoval : Json → Except Malformation AbstractGrammar
  | .object fields => do
    let (name, fields) := takeMember "name" fields
    let name ← grammarName name
    let (start, fields) := takeMember "startcat" fields
    let start ← startCategory start
    let (functions, _) := takeMember "funs" fields
    let functions ← declarations functions
    return .ofDeclarations name start functions
  | _ => .error .abstractNotObject

/-- The grammar of a document, the fields of which are taken out one by
one. -/
def grammarByRemoval : Json → Except Malformation Grammar
  | .object members => do
    let (value, members) := takeMember "abstract" members
    let abstractGrammar ← match value with
      | none => .error .missingAbstract
      | some v => abstractByRemoval v
    let found ← concreteMembers (.object members)
    let parts ← found.mapM fun (id, v) => concretePart id v
    let diagnostics := parts.flatMap fun p => p.2.map Notice.diagnostic
    return ⟨abstractGrammar, parts.map (·.1), Diagnostic.noteAll [] diagnostics⟩
  | _ => .error .documentNotObject

end Document

end GrammarExplorer
