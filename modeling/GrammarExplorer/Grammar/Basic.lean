/-
A grammar: one abstract grammar, and any number of concrete grammars for it.
-/
import GrammarExplorer.Diagnostic
import GrammarExplorer.Grammar.Abstract
import GrammarExplorer.Grammar.Concrete

namespace GrammarExplorer

structure Grammar where
  abstractGrammar : AbstractGrammar
  concretes : List ConcreteGrammar
  /-- What was worth a remark while the grammar was loaded. -/
  diagnostics : List Diagnostic

namespace Grammar

/-- A grammar put together from its parts. -/
def ofParts (abstractGrammar : AbstractGrammar) (concretes : List ConcreteGrammar) : Grammar :=
  ⟨abstractGrammar, concretes, []⟩

variable (g : Grammar)

def startCategory : String := g.abstractGrammar.startCategory

def concreteIds : List String := g.concretes.map (·.id)

def languageTags : List String := g.concretes.map (·.languageTag)

/-- The concrete grammar with an id. -/
def concrete? (id : String) : Option ConcreteGrammar :=
  g.concretes.find? (·.id == id)

/-- The first concrete grammar for a language. -/
def concreteFor? (tag : String) : Option ConcreteGrammar :=
  g.concretes.find? (·.languageTag == tag)

/-- The concrete grammar that a user means: the one with that id, else the
first one for that language. -/
def named? (wanted : String) : Option ConcreteGrammar :=
  (g.concrete? wanted).orElse fun _ => g.concreteFor? wanted

end Grammar

end GrammarExplorer
