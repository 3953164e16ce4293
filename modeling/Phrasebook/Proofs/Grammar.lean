import Phrasebook.Proofs.Integers
import Phrasebook.Template.Hole

/-!
The grammar of templates, as relations between the characters to come, what they spell, and the
characters that are left.

    template  = (run | '}}' | '{{' verbatim '}}' | '{' hole '}')*
    hole      = ws ['@' name [':' context] ws] reference (':' key)* ws
    reference = '$' name | name | name '(' ws [argument (',' argument)*] ')'
    argument  = ws ('$' name | integer | '"' text '"' | name) ws
    key       = '$' name | word
    context   = '$' name | dotted word

Names, words, digits and blanks each take as many characters as they can. A name with a capital
initial is the name with a small one behind `@cap`, and admits no other transform.
-/

namespace Phrasebook.Template.Grammar

open Text

/-! ### Words -/

/-- No character of the class comes next. -/
def Ended (p : Char → Bool) (rest : List Char) : Prop :=
  ∀ c, rest.head? = some c → p c = false

/-- All the characters of a class that stand at the start of a text. -/
structure Run (p : Char → Bool) (text : List Char) (word : String) (rest : List Char) : Prop where
  spelled : text = word.toList ++ rest
  inside : ∀ c ∈ word.toList, p c
  ended : Ended p rest

/-- A run of at least one character, of which the first is of a class of its own. -/
structure Word (first p : Char → Bool) (text : List Char) (word : String) (rest : List Char) : Prop
    extends Run p text word rest where
  start : ∃ c, word.toList.head? = some c ∧ first c

/-- A name starts with no digit. -/
abbrev Name : List Char → String → List Char → Prop :=
  Word isNameStart isWordChar

def Blanks (text rest : List Char) : Prop :=
  ∃ blanks, Run isBlank text blanks rest

def isDotted (c : Char) : Bool :=
  isWordChar c || c == '.'

/-- A key of a class of characters, written out or supplied by a parameter. -/
inductive Key (p : Char → Bool) : List Char → Selector → List Char → Prop where
  | parameter {text rest : List Char} {name : String} (hn : Name text name rest) :
    Key p ('$' :: text) (.parameter name) rest
  | literal {text rest : List Char} {word : String} (hw : Word p p text word rest) :
    Key p text (.literal word) rest

/-! ### Arguments -/

/-- An integer in range, which has no plus sign. -/
inductive Integer : List Char → Int64 → List Char → Prop where
  | unsigned {text rest : List Char} {digits : String} {n : Int64}
      (hd : Word Char.isDigit Char.isDigit text digits rest)
      (hn : n.toInt = decimal digits.toList) :
    Integer text n rest
  | negative {text rest : List Char} {digits : String} {n : Int64}
      (hd : Word Char.isDigit Char.isDigit text digits rest)
      (hn : n.toInt = -(decimal digits.toList : Int)) :
    Integer ('-' :: text) n rest

/-- A name that stands for a phrase is neither called nor has a key selected. -/
inductive Argument : List Char → Phrasebook.Argument → List Char → Prop where
  | parameter {text rest : List Char} {name : String} (hn : Name text name rest) :
    Argument ('$' :: text) (.parameter name) rest
  | number {text rest : List Char} {n : Int64} (hi : Integer text n rest) :
    Argument text (.number n) rest
  | text {content rest : List Char} (hq : '"' ∉ content) :
    Argument ('"' :: (content ++ '"' :: rest)) (.text (String.ofList content)) rest
  | term {text rest : List Char} {name : String} (hn : Name text name rest)
      (hcall : rest.head? ≠ some '(') (hkey : rest.head? ≠ some ':') :
    Argument text (.term name) rest

/-- At least one argument, up to the closing parenthesis. -/
inductive SomeArguments : List Char → List Phrasebook.Argument → List Char → Prop where
  | last {text start stop rest : List Char} {argument : Phrasebook.Argument}
      (hb : Blanks text start) (ha : Argument start argument stop)
      (he : Blanks stop (')' :: rest)) :
    SomeArguments text [argument] rest
  | more {text start stop next rest : List Char} {argument : Phrasebook.Argument}
      {arguments : List Phrasebook.Argument}
      (hb : Blanks text start) (ha : Argument start argument stop)
      (he : Blanks stop (',' :: next)) (hm : SomeArguments next arguments rest) :
    SomeArguments text (argument :: arguments) rest

inductive Arguments : List Char → List Phrasebook.Argument → List Char → Prop where
  | none {text rest : List Char} (hb : Blanks text (')' :: rest)) : Arguments text [] rest
  | some {text rest : List Char} {arguments : List Phrasebook.Argument}
      (hs : SomeArguments text arguments rest) :
    Arguments text arguments rest

/-! ### Holes -/

/-- The name that a written name means, and whether it asks for a capital. -/
inductive Meant : String → String → Bool → Prop where
  | small {c : Char} {rest : List Char} (hc : ¬ ('A' ≤ c ∧ c ≤ 'Z')) :
    Meant (String.ofList (c :: rest)) (String.ofList (c :: rest)) false
  | capital {c : Char} {rest : List Char} (hc : 'A' ≤ c ∧ c ≤ 'Z') :
    Meant (String.ofList (c :: rest)) (String.ofList (c.toLower :: rest)) true

/-- A reference, and whether its name was capitalised. -/
inductive Reference : List Char → Phrasebook.Reference → Bool → List Char → Prop where
  | parameter {text rest : List Char} {name : String} (hn : Name text name rest) :
    Reference ('$' :: text) (.parameter name) false rest
  | term {text rest : List Char} {written name : String} {capital : Bool}
      (hn : Name text written rest) (hcall : rest.head? ≠ some '(')
      (hm : Meant written name capital) :
    Reference text (.term name) capital rest
  | call {text rest more : List Char} {written name : String} {capital : Bool}
      {arguments : List Phrasebook.Argument} (hn : Name text written ('(' :: rest))
      (hm : Meant written name capital) (ha : Arguments rest arguments more) :
    Reference text (.call name arguments) capital more

/-- A transform call and the blanks behind it, or nothing. -/
inductive Transforming : List Char → Option TransformCall → List Char → Prop where
  | none {text : List Char} : Transforming text none text
  | plain {text stop rest : List Char} {name : String} (hn : Name text name stop)
      (hb : Blanks stop rest) :
    Transforming ('@' :: text) (some ⟨name, Option.none⟩) rest
  | inContext {text next stop rest : List Char} {name : String} {context : Selector}
      (hn : Name text name (':' :: next)) (hk : Key isDotted next context stop)
      (hb : Blanks stop rest) :
    Transforming ('@' :: text) (some ⟨name, some context⟩) rest

inductive Selectors : List Char → List Selector → List Char → Prop where
  | nil {text : List Char} (hc : text.head? ≠ some ':') : Selectors text [] text
  | cons {text stop rest : List Char} {key : Selector} {keys : List Selector}
      (hk : Key isWordChar text key stop) (hs : Selectors stop keys rest) :
    Selectors (':' :: text) (key :: keys) rest

/-- The whole inside of a hole. -/
inductive Hole : List Char → Interpolation → Prop where
  | small {text start next stop rest : List Char} {transform : Option TransformCall}
      {reference : Phrasebook.Reference} {selectors : List Selector}
      (hb : Blanks text start) (ht : Transforming start transform next)
      (hr : Reference next reference false stop) (hs : Selectors stop selectors rest)
      (he : Blanks rest []) :
    Hole text ⟨transform, reference, selectors⟩
  | capital {text start stop rest : List Char} {reference : Phrasebook.Reference}
      {selectors : List Selector} (hb : Blanks text start)
      (hr : Reference start reference true stop) (hs : Selectors stop selectors rest)
      (he : Blanks rest []) :
    Hole text ⟨some ⟨"cap", none⟩, reference, selectors⟩

/-! ### Templates -/

/-- A place is outside quotes if an even number of them stands before it. -/
def Outside (before : List Char) : Prop :=
  before.count '"' % 2 = 0

/-- The first closing brace outside quotes is the one behind these characters. -/
structure Enclosed (content : List Char) : Prop where
  outside : Outside content
  first : ∀ before after, content = before ++ '}' :: after → ¬ Outside before

/-- The characters of a template, cut from the left into segments. -/
inductive Segments : List Char → List Segment → Prop where
  | nil : Segments [] []
  | run {text rest : List Char} {segments : List Segment} (hne : text ≠ [])
      (hopen : '{' ∉ text) (hclose : '}' ∉ text) (hs : Segments rest segments) :
    Segments (text ++ rest) (.literal (String.ofList text) :: segments)
  | brace {rest : List Char} {segments : List Segment} (hs : Segments rest segments) :
    Segments ('}' :: '}' :: rest) (.literal (String.ofList ['}']) :: segments)
  | verbatim {content rest : List Char} {segments : List Segment}
      (hfirst : ¬ ['}', '}'] <:+: content ++ ['}']) (hs : Segments rest segments) :
    Segments ('{' :: '{' :: (content ++ '}' :: '}' :: rest))
      (.literal (String.ofList ('{' :: content ++ ['}'])) :: segments)
  | hole {content rest : List Char} {hole : Interpolation} {segments : List Segment}
      (he : Enclosed content) (hh : Hole content hole) (hs : Segments rest segments) :
    Segments ('{' :: (content ++ '}' :: rest)) (.interpolation hole :: segments)

/-- No literal is empty, and no two stand side by side. -/
structure Tidy (segments : List Segment) : Prop where
  nonempty : .literal "" ∉ segments
  apart : ∀ a b, ¬ [.literal a, .literal b] <:+: segments

/-- The same segments, but for how characters are divided into literals. -/
structure Merged (segments merged : List Segment) : Prop extends Tidy merged where
  pieces : Template.pieces ⟨merged⟩ = Template.pieces ⟨segments⟩

end Phrasebook.Template.Grammar
