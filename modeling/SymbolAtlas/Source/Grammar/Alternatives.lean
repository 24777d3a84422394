import SymbolAtlas.Source.Grammar.Declaration
import SymbolAtlas.Source.Grammar.Expression
import SymbolAtlas.Source.Grammar.Function
import SymbolAtlas.Source.Grammar.Naming
import SymbolAtlas.Source.Grammar.Quotation
import SymbolAtlas.Source.Grammar.Statement

/-
  The grammar as a whole.

  Key definitions:
    * `Grammar.alternatives`
-/

namespace SymbolAtlas

namespace Grammar

/-
  The lists of goals that a phrase can stand for, behind an
  expression of some shape.
-/
def alternatives (shape : Shape) : Phrase → List (List Goal)
| .maybe one => [[.go one], []]
| .many one => [[.go one, .go (.many one)], []]
| .list one => [[.go one, .go (.more one)]]
| .more one => [[sign ",", .go one, .go (.more one)], []]
| .comma => [[sign ","]]
| .ampersand => [[sign "&"]]
| .semicolon => semicolon
| .identifier => [[name]]
| .path => path
| .pathStep => pathStep
| .relativeRest => relativeRest
| .typeName => typeName
| .typeAtom => typeAtom
| .andType => andType
| .typeChoice => typeChoice
| .orType => orType
| .type => type
| .returnType => returnType
| .attributes => attributes
| .oneAttribute => oneAttribute
| .expression role => expression role
| .suffix shape role => suffix shape role
| .tail shape role => tail shape role
| .holder => holder
| .simpleHolder => simpleHolder
| .dynamicHolder => dynamicHolder
| .scopeMember role => scopeMember role
| .memberName => memberName
| .castType => castType
| .literal => literal
| .condition => condition
| .newTarget role => newTarget role
| .newRest role => newRest role
| .newModifier => newModifier
| .classReference => classReference
| .classSuffix => classSuffix
| .arguments => arguments
| .argument => argument
| .argumentName => argumentName
| .argumentValue => argumentValue
| .elements form reading isFirst role =>
    elements form reading isFirst role
| .elementsRest form reading role =>
    elementsRest form reading role shape
| .element => element
| .elementValue => elementValue
| .elementArrow => elementArrow shape
| .reference => reference
| .yieldOperand => yieldOperand
| .yieldEnd => yieldEnd
| .arms => arms
| .arm => arm
| .armConditions => armConditions
| .string => string
| .quoted host => quoted host
| .stringPart host => stringPart host
| .holderTail host => holderTail host
| .subscript => subscript
| .labelled => labelled
| .labelledText => labelledText
| .rawText => rawText
| .closure role => closure role
| .closureUse => closureUse
| .captured => captured
| .parameters => parameters
| .parameter => parameter
| .parameterForm => parameterForm
| .parameterWord => parameterWord
| .defaultValue => defaultValue
| .hooks => hooks
| .hooksOrEnd => hooksOrEnd
| .hook => hook
| .finalWord => finalWord
| .hookBody => hookBody
| .body => body
| .modifier => modifier
| .classHead => classHead
| .extended => extended
| .implemented => implemented
| .enumType => enumType
| .classBody ofEnum => classBody ofEnum
| .member ofEnum => member ofEnum
| .memberBody ofEnum => memberBody ofEnum
| .modified => modified
| .accessScope => accessScope
| .constant => constant
| .property => property
| .traitRules => traitRules
| .traitRule => traitRule
| .ruleName => ruleName
| .ruleAlias => ruleAlias
| .statement => statement
| .block => block
| .attributed => attributed
| .ifBody => ifBody
| .elseifBranch => elseifBranch
| .elseBranch => elseBranch
| .colonElseif => colonElseif
| .colonElse => colonElse
| .loopBody lastWord => loopBody lastWord
| .colonBody lastWord => colonBody lastWord
| .switchBody => switchBody
| .oneCase => oneCase
| .caseMark => caseMark
| .handler => handler
| .catchType => catchType
| .directive => directive
| .declareBody => declareBody
| .exitValue => exitValue
| .foreachTarget => foreachTarget
| .foreachArrow => foreachArrow shape
| .foreachValue => foreachValue
| .spaceName => spaceName
| .useKind => useKind
| .useClause => useClause
| .groupClause => groupClause
| .anotherName => anotherName
| .root => root

end Grammar

end SymbolAtlas
