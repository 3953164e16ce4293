import Phrasebook.Definition.Grammar
import Phrasebook.Proofs.Grammar

/-!
The grammar of sources of definitions, as relations between the characters to come, what they spell,
and the characters that are left.

    source     = gap (definition gap)*
    definition = name gap [parameters] gap '=' gap (modifier gap)* body gap ';'
    parameters = '(' [gap '$' name (gap ',' gap '$' name)*] gap ')'
    modifier   = ':' name | ':from(' ws '$' name ws ')'
               | ':match(' ws '$' name (ws ',' ws '$' name)* ws ')'
    body       = nothing | text | '{' gap entry (gap ',' gap entry)* [gap ','] gap '}'
    entry      = key (gap ',' gap key)* gap ':' gap text
    key        = part ('.' part)*
    part       = word | '*' [word]
    text       = '"' glyph* '"'

A gap is blanks and comments, and may be empty. What is spelled is kept without the places where it
stands, and texts without their escapes.
-/

namespace Phrasebook

open Text

/-! ### What is spelled -/

/-- An entry as written. -/
structure Draft.Entry where
  keys : List EntryKey
  text : String
deriving DecidableEq, Repr

inductive Draft.Body where
  | template (text : String)
  | entries (entries : List Draft.Entry)
  | absent
deriving DecidableEq, Repr

/-- A definition as written. -/
structure Draft where
  name : String
  parameters : List String
  modifiers : List Modifier
  body : Draft.Body
deriving DecidableEq, Repr

def RawEntry.draft (e : RawEntry) : Draft.Entry :=
  ⟨e.keys, e.text.text⟩

def RawBody.draft : RawBody → Draft.Body
  | template text => .template text.text
  | entries es => .entries (es.map RawEntry.draft)
  | absent => .absent

def RawDefinition.draft (d : RawDefinition) : Draft :=
  ⟨d.name, d.parameters, d.modifiers, d.body.draft⟩

/-- The spellings of characters between quotes. -/
inductive Glyph.Spelled : Glyph → Prop where
  | plain {c : Char} (hq : c ≠ '"') (hb : c ≠ '\\') : Spelled ⟨c, [c]⟩
  | newline : Spelled ⟨'\n', ['\\', 'n']⟩
  | tab : Spelled ⟨'\t', ['\\', 't']⟩
  | quote : Spelled ⟨'"', ['\\', '"']⟩
  | backslash : Spelled ⟨'\\', ['\\', '\\']⟩
  | codePoint {c : Char} {digits : List Char} {n : Nat} (hne : digits ≠ [])
      (hd : Quoted.hexRun 6 digits 0 = (n, [])) (hn : scalar? n = some c) :
    Spelled ⟨c, '\\' :: 'u' :: '{' :: (digits ++ ['}'])⟩

namespace Source

open Template.Grammar

/-! ### Words and texts -/

/-- Blanks and comments. -/
def Gap (text rest : List Char) : Prop :=
  Reader.skipGap false text = rest

/-- A text in quotes. -/
inductive Quotation : List Char → String → List Char → Prop where
  | mk {glyphs : List Glyph} {rest : List Char} (hg : ∀ g ∈ glyphs, g.Spelled) :
    Quotation ('"' :: (glyphs.flatMap Glyph.spelling ++ '"' :: rest))
      (String.ofList (glyphs.map Glyph.char)) rest

/-! ### Keys -/

inductive Part : List Char → KeyPart → List Char → Prop where
  | word {text rest : List Char} {name : String} (hw : Word isWordChar isWordChar text name rest) :
    Part text (.literal name) rest
  | star {rest : List Char} : Part ('*' :: rest) (.wildcard none) rest
  | labelled {text rest : List Char} {name : String}
      (hw : Word isWordChar isWordChar text name rest) :
    Part ('*' :: text) (.wildcard (some name)) rest

inductive Parts : List Char → List KeyPart → List Char → Prop where
  | last {text rest : List Char} {part : KeyPart} (hp : Part text part rest) :
    Parts text [part] rest
  | more {text next rest : List Char} {part : KeyPart} {parts : List KeyPart}
      (hp : Part text part ('.' :: next)) (hs : Parts next parts rest) :
    Parts text (part :: parts) rest

/-- The keys of an entry, up to the colon behind them. -/
inductive Keys : List Char → List EntryKey → List Char → Prop where
  | last {text stop rest : List Char} {parts : List KeyPart} (hk : Parts text parts stop)
      (hg : Gap stop (':' :: rest)) :
    Keys text [⟨parts⟩] rest
  | more {text stop next start rest : List Char} {parts : List KeyPart} {keys : List EntryKey}
      (hk : Parts text parts stop) (hg : Gap stop (',' :: next)) (hn : Gap next start)
      (hs : Keys start keys rest) :
    Keys text (⟨parts⟩ :: keys) rest

/-! ### Bodies -/

inductive Entry : List Char → Draft.Entry → List Char → Prop where
  | mk {text next start rest : List Char} {keys : List EntryKey} {content : String}
      (hk : Keys text keys next) (hg : Gap next start) (hq : Quotation start content rest) :
    Entry text ⟨keys, content⟩ rest

/-- Entries, up to the brace behind them. -/
inductive Entries : List Char → List Draft.Entry → List Char → Prop where
  | last {text stop rest : List Char} {entry : Draft.Entry} (he : Entry text entry stop)
      (hg : Gap stop ('}' :: rest)) :
    Entries text [entry] rest
  | comma {text stop next rest : List Char} {entry : Draft.Entry} (he : Entry text entry stop)
      (hg : Gap stop (',' :: next)) (hn : Gap next ('}' :: rest)) :
    Entries text [entry] rest
  | more {text stop next start rest : List Char} {entry : Draft.Entry}
      {entries : List Draft.Entry} (he : Entry text entry stop) (hg : Gap stop (',' :: next))
      (hn : Gap next start) (hs : Entries start entries rest) :
    Entries text (entry :: entries) rest

/-- A body, up to the semicolon behind it. -/
inductive Body : List Char → Draft.Body → List Char → Prop where
  | absent {rest : List Char} : Body (';' :: rest) .absent rest
  | template {text stop rest : List Char} {content : String}
      (hq : Quotation text content stop) (hg : Gap stop (';' :: rest)) :
    Body text (.template content) rest
  | entries {text start stop rest : List Char} {entries : List Draft.Entry}
      (hn : Gap text start) (he : Entries start entries stop) (hg : Gap stop (';' :: rest)) :
    Body ('{' :: text) (.entries entries) rest

/-! ### Modifiers -/

/-- Parameters, up to the parenthesis behind them. -/
inductive Selecting : List Char → List String → List Char → Prop where
  | last {text stop rest : List Char} {name : String} (hn : Name text name stop)
      (hb : Blanks stop (')' :: rest)) :
    Selecting ('$' :: text) [name] rest
  | more {text stop next start rest : List Char} {name : String} {names : List String}
      (hn : Name text name stop) (hb : Blanks stop (',' :: next)) (hs : Blanks next start)
      (hm : Selecting start names rest) :
    Selecting ('$' :: text) (name :: names) rest

inductive Modifier : List Char → Phrasebook.Modifier → List Char → Prop where
  | tag {text rest : List Char} {name : String} (hn : Name text name rest)
      (hfrom : name ≠ "from") (hmatch : name ≠ "match") :
    Modifier (':' :: text) (.tag name) rest
  | inherits {text next inside stop rest : List Char} {name : String}
      (hf : Name text "from" ('(' :: next)) (hb : Blanks next ('$' :: inside))
      (hn : Name inside name stop) (he : Blanks stop (')' :: rest)) :
    Modifier (':' :: text) (.inherits name) rest
  | selects {text next start rest : List Char} {names : List String}
      (hm : Name text "match" ('(' :: next)) (hb : Blanks next start)
      (hs : Selecting start names rest) :
    Modifier (':' :: text) (.selects names) rest

/-- Modifiers and a body, up to the semicolon. -/
inductive Tail : List Char → List Phrasebook.Modifier → Draft.Body → List Char → Prop where
  | body {text rest : List Char} {body : Draft.Body} (hb : Body text body rest) :
    Tail text [] body rest
  | modifier {text stop next rest : List Char} {modifier : Phrasebook.Modifier}
      {modifiers : List Phrasebook.Modifier} {body : Draft.Body}
      (hm : Modifier text modifier stop) (hg : Gap stop next)
      (ht : Tail next modifiers body rest) :
    Tail text (modifier :: modifiers) body rest

/-! ### Definitions -/

/-- At least one parameter, up to the parenthesis behind the last. -/
inductive SomeParameters : List Char → List String → List Char → Prop where
  | last {text start stop rest : List Char} {name : String} (hg : Gap text ('$' :: start))
      (hn : Name start name stop) (he : Gap stop (')' :: rest)) :
    SomeParameters text [name] rest
  | more {text start stop next rest : List Char} {name : String} {names : List String}
      (hg : Gap text ('$' :: start)) (hn : Name start name stop) (he : Gap stop (',' :: next))
      (hs : SomeParameters next names rest) :
    SomeParameters text (name :: names) rest

/-- What may stand between the name and the equals sign. -/
inductive Parameters : List Char → List String → List Char → Prop where
  | absent {text : List Char} : Parameters text [] text
  | none {text rest : List Char} (hg : Gap text (')' :: rest)) : Parameters ('(' :: text) [] rest
  | some {text rest : List Char} {names : List String} (hs : SomeParameters text names rest) :
    Parameters ('(' :: text) names rest

/-- A definition with its semicolon. The name has a small initial. -/
inductive Definition : List Char → Draft → List Char → Prop where
  | mk {text named start stop next begun rest : List Char} {c : Char} {name : String}
      {parameters : List String} {modifiers : List Phrasebook.Modifier} {body : Draft.Body}
      (hc : text.head? = some c) (hsmall : 'a' ≤ c ∧ c ≤ 'z') (hn : Name text name named)
      (hg : Gap named start) (hp : Parameters start parameters stop)
      (he : Gap stop ('=' :: next)) (hb : Gap next begun) (ht : Tail begun modifiers body rest) :
    Definition text ⟨name, parameters, modifiers, body⟩ rest

/-- Definitions with gaps behind them, up to the end. -/
inductive Definitions : List Char → List Draft → Prop where
  | nil : Definitions [] []
  | cons {text stop next : List Char} {draft : Draft} {drafts : List Draft}
      (hd : Definition text draft stop) (hg : Gap stop next) (hs : Definitions next drafts) :
    Definitions text (draft :: drafts)

end Source

/-- The whole of a source. -/
def Source (text : List Char) (drafts : List Draft) : Prop :=
  ∃ start, Source.Gap text start ∧ Source.Definitions start drafts

end Phrasebook
