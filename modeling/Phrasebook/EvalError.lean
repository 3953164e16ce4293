import Phrasebook.ParseError
import Phrasebook.PhraseId
import Phrasebook.VariantTable

/-!
Why a phrase cannot be rendered. An error ends the whole call; no part of the text is given.
-/

namespace Phrasebook

inductive EvalError where
  | phraseNotFound (name language : String)
  | idNotFound (hash : UInt64)
  | argumentCount (phrase : String) (expected got : Nat)
  | missingParameter (name : String)
  | noMatchingVariant (phrase : String) (values : List String)
  | missingTag (transform : String) (expected : List String) (value : String)
  | unsupportedTags (transform : String) (tags : List String)
  | invalidContext (transform context : String)
  | untaggedSelector (parameter value : String)
  | unknownTransform (name : String)
  | parse (error : ParseError)
  | variants (error : MissingOther)
  | noActiveLocale
  /-- Calls nest deeper than there are phrases, which only a cycle of references can bring about. -/
  | nestedTooDeep (name : String)
deriving DecidableEq, Repr

namespace EvalError

def list (items : List String) : String :=
  ", ".intercalate items

def message : EvalError → String
  | phraseNotFound name language => s!"phrase '{name}' not found in locale '{language}'"
  | idNotFound hash =>
    let digits := PhraseId.showHash hash
    s!"phrase not found for id: {digits}"
  | argumentCount phrase expected got =>
    s!"phrase '{phrase}' expects {expected} argument(s), got {got}"
  | missingParameter name => s!"missing parameter '${name}'"
  | noMatchingVariant phrase values => s!"phrase '{phrase}' has no arm matching ({list values})"
  | missingTag transform expected value =>
    s!"transform '@{transform}' requires one of the tags [{list expected}] on '{value}'"
  | unsupportedTags transform tags =>
    s!"transform '@{transform}' cannot handle the tag combination [{list tags}]"
  | invalidContext transform context =>
    s!"transform '@{transform}' does not accept the context '{context}'"
  | untaggedSelector parameter value =>
    s!"selector '${parameter}' received '{value}', which has no tags"
  | unknownTransform name => s!"unknown transform '@{name}'"
  | parse error => error.message
  | variants error => error.message
  | noActiveLocale => "no active locale: publish a default or enter a locale scope"
  | nestedTooDeep name => s!"calls to phrase '{name}' are nested too deep"

end EvalError

end Phrasebook
