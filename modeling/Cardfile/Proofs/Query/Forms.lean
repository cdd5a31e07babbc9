import Cardfile.Query.Clause

/-!
# Written forms

Every way in which a condition or a statement can be written, said without a
parser.  A form relates what is meant to the characters that are written and to
the way in which they end: only a closed end may touch a word that follows, and
everything else needs a gap before it.
-/

namespace Cardfile.Query

/-- Spaces, tabs and line breaks only. -/
def Gap (cs : List Char) : Prop :=
  ∀ c ∈ cs, c ∈ [' ', '\t', '\r', '\n']

/-- How something written ends. -/
inductive Ending where
  | closed
  | word
  | bare
deriving DecidableEq

/-- A gap that keeps a following word apart. -/
structure Ending.Parts (ending : Ending) (gap : List Char) : Prop where
  blank : Gap gap
  apart : ending = .closed ∨ gap ≠ []

/-- The forms of things of a type. -/
abbrev Form (α : Type) := α → Ending → List Char → Prop

/-- Letters and digits of ASCII and underscores, the first of them no digit. -/
inductive NameForm : Form String where
  | mk {first : Char} {others : List Char}
      (start : first.isAlpha = true ∨ first = '_')
      (words : ∀ c ∈ others, c.isAlphanum = true ∨ c = '_') :
      NameForm (String.ofList (first :: others)) .word (first :: others)

/-- Anything but quotes in quotes, or something without gaps and signs. -/
inductive ValueForm : Form String where
  | quoted {text : List Char} (free : '\'' ∉ text) :
      ValueForm (String.ofList text) .closed ('\'' :: (text ++ ['\'']))
  | bare {text : List Char} (some : text ≠ [])
      (legal : ∀ c ∈ text,
        c ∉ [' ', '\t', '\r', '\n', '\'', ',', '(', ')', ';', '=']) :
      ValueForm (String.ofList text) .bare text

inductive BindingForm : Form Binding where
  | mk {name text : String} {before after left right : List Char}
      {ending : Ending}
      (nameForm : NameForm name .word left)
      (gapBefore : Gap before) (gapAfter : Gap after)
      (valueForm : ValueForm text ending right) :
      BindingForm ⟨name, text⟩ ending
        (left ++ (before ++ '=' :: (after ++ right)))

/-- Connectives have lower-case letters only. -/
inductive ConnectiveForm : Connective → List Char → Prop where
  | and : ConnectiveForm .and ['a', 'n', 'd']
  | or : ConnectiveForm .or ['o', 'r']

/-- Comparisons that go on after something written, each behind its
connective. -/
inductive LinksForm :
    Ending → List (Connective × Binding) → Ending → List Char → Prop where
  | nil {ending : Ending} : LinksForm ending [] ending []
  | cons {connective : Connective} {binding : Binding}
      {links : List (Connective × Binding)}
      {start middle ending : Ending}
      {before word after written others : List Char}
      (gapBefore : start.Parts before)
      (connectiveForm : ConnectiveForm connective word)
      (gapAfter : Ending.word.Parts after)
      (bindingForm : BindingForm binding middle written)
      (linksForm : LinksForm middle links ending others) :
      LinksForm start ((connective, binding) :: links) ending
        (before ++ (word ++ (after ++ (written ++ others))))

inductive ConditionForm : Form (Chain Binding) where
  | mk {first : Binding} {links : List (Connective × Binding)}
      {middle ending : Ending} {written others : List Char}
      (bindingForm : BindingForm first middle written)
      (linksForm : LinksForm middle links ending others) :
      ConditionForm ⟨first, links⟩ ending (written ++ others)

/-- A condition or nothing, with gaps around it. -/
inductive ClauseForm : Option (Chain Binding) → List Char → Prop where
  | blank {gap : List Char} (gapForm : Gap gap) : ClauseForm none gap
  | condition {chain : Chain Binding} {ending : Ending}
      {before written after : List Char}
      (gapBefore : Gap before)
      (conditionForm : ConditionForm chain ending written)
      (gapAfter : Gap after) :
      ClauseForm (some chain) (before ++ (written ++ after))

/-- Items with commas between them. -/
inductive RowForm {α : Type} (form : Form α) : Form (List α) where
  | one {item : α} {ending : Ending} {written : List Char}
      (itemForm : form item ending written) :
      RowForm form [item] ending written
  | cons {item : α} {items : List α} {middle ending : Ending}
      {written before after others : List Char}
      (itemForm : form item middle written)
      (gapBefore : Gap before) (gapAfter : Gap after)
      (rowForm : RowForm form items ending others) :
      RowForm form (item :: items) ending
        (written ++ (before ++ ',' :: (after ++ others)))

inductive NamesForm : Form Names where
  | star : NamesForm .star .closed ['*']
  | list {names : List String} {ending : Ending} {written : List Char}
      (rowForm : RowForm NameForm names ending written) :
      NamesForm (.list names) ending written

/-- A word of a statement in any case. -/
def KeywordForm (word : String) (written : List Char) : Prop :=
  written.map Char.toLower = word.toList

/-- A condition behind the word that announces it, or nothing. -/
inductive FilterForm :
    Ending → Option (Chain Binding) → Ending → List Char → Prop where
  | absent {ending : Ending} : FilterForm ending none ending []
  | present {chain : Chain Binding} {start ending : Ending}
      {before word after written : List Char}
      (gapBefore : start.Parts before)
      (keyword : KeywordForm "where" word)
      (gapAfter : Ending.word.Parts after)
      (conditionForm : ConditionForm chain ending written) :
      FilterForm start (some chain) ending
        (before ++ (word ++ (after ++ written)))

/-- Something in brackets. -/
inductive BracketForm {α : Type} (form : Form α) : Form α where
  | mk {item : α} {ending : Ending} {before written after : List Char}
      (gapBefore : Gap before)
      (itemForm : form item ending written)
      (gapAfter : Gap after) :
      BracketForm form item .closed
        ('(' :: (before ++ (written ++ (after ++ [')']))))

inductive InsertForm : Form Sentence where
  | mk {names : Names} {values : List String}
      {namesEnding valuesEnding : Ending}
      {insertWord gap names' gap' valuesWord gap'' values' : List Char}
      (insertKeyword : KeywordForm "insert" insertWord) (gapForm : Gap gap)
      (namesForm : BracketForm NamesForm names namesEnding names')
      (gapForm' : Gap gap')
      (valuesKeyword : KeywordForm "values" valuesWord) (gapForm'' : Gap gap'')
      (valuesForm : BracketForm (RowForm ValueForm) values valuesEnding
        values') :
      InsertForm (.insert names values) valuesEnding
        (insertWord ++ (gap ++ (names' ++
          (gap' ++ (valuesWord ++ (gap'' ++ values'))))))

inductive SelectForm : Form Sentence where
  | mk {names : Names} {condition : Option (Chain Binding)}
      {middle ending : Ending} {word gap written filter : List Char}
      (keyword : KeywordForm "select" word) (gapForm : Gap gap)
      (apart : names = .star ∨ gap ≠ [])
      (namesForm : NamesForm names middle written)
      (filterForm : FilterForm middle condition ending filter) :
      SelectForm (.select names condition) ending
        (word ++ (gap ++ (written ++ filter)))

inductive UpdateForm : Form Sentence where
  | mk {assignments : List Binding} {condition : Option (Chain Binding)}
      {middle ending : Ending}
      {updateWord gap setWord gap' written filter : List Char}
      (updateKeyword : KeywordForm "update" updateWord)
      (parts : Ending.word.Parts gap)
      (setKeyword : KeywordForm "set" setWord)
      (parts' : Ending.word.Parts gap')
      (assignmentsForm : RowForm BindingForm assignments middle written)
      (filterForm : FilterForm middle condition ending filter) :
      UpdateForm (.update assignments condition) ending
        (updateWord ++ (gap ++ (setWord ++ (gap' ++ (written ++ filter)))))

inductive DeleteForm : Form Sentence where
  | mk {condition : Chain Binding} {ending : Ending}
      {deleteWord gap whereWord gap' written : List Char}
      (deleteKeyword : KeywordForm "delete" deleteWord)
      (parts : Ending.word.Parts gap)
      (whereKeyword : KeywordForm "where" whereWord)
      (parts' : Ending.word.Parts gap')
      (conditionForm : ConditionForm condition ending written) :
      DeleteForm (.delete condition) ending
        (deleteWord ++ (gap ++ (whereWord ++ (gap' ++ written))))

inductive SentenceForm : Form Sentence where
  | insert {sentence : Sentence} {ending : Ending} {written : List Char}
      (insertForm : InsertForm sentence ending written) :
      SentenceForm sentence ending written
  | select {sentence : Sentence} {ending : Ending} {written : List Char}
      (selectForm : SelectForm sentence ending written) :
      SentenceForm sentence ending written
  | update {sentence : Sentence} {ending : Ending} {written : List Char}
      (updateForm : UpdateForm sentence ending written) :
      SentenceForm sentence ending written
  | delete {sentence : Sentence} {ending : Ending} {written : List Char}
      (deleteForm : DeleteForm sentence ending written) :
      SentenceForm sentence ending written

/-- A statement with gaps around it and a semicolon behind it or none. -/
inductive StatementForm : Sentence → List Char → Prop where
  | bare {sentence : Sentence} {ending : Ending}
      {before written after : List Char}
      (gapBefore : Gap before)
      (sentenceForm : SentenceForm sentence ending written)
      (gapAfter : Gap after) :
      StatementForm sentence (before ++ (written ++ after))
  | semicolon {sentence : Sentence} {ending : Ending}
      {before written between after : List Char}
      (gapBefore : Gap before)
      (sentenceForm : SentenceForm sentence ending written)
      (gapBetween : Gap between) (gapAfter : Gap after) :
      StatementForm sentence (before ++ (written ++ (between ++ ';' :: after)))

end Cardfile.Query
