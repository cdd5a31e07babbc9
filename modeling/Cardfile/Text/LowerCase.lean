import Cardfile.Text.CaseTable

/-!
# Lower-case text

Names are looked up by their lower-case form.  Two rules go beyond the table
of single code points: the dotted capital I becomes two code points, and the
capital sigma has a form of its own at the end of a word.
-/

namespace Cardfile.Text

/-- The lower-case form of one character wherever it stands. -/
def lowerChar (c : Char) : Char :=
  if c.toNat < 128 then c.toLower else Char.ofNat (CaseTable.lower c.toNat)

/-- Whether the first character that counts is a letter with a case. -/
def startsCased (cs : List Char) : Bool :=
  match cs.dropWhile fun c => isIgnorable c with
  | c :: _ => isCased c
  | [] => false
where
  isIgnorable (c : Char) : Bool :=
    CaseTable.covers CaseTable.ignorable c.toNat
  isCased (c : Char) : Bool :=
    CaseTable.covers CaseTable.cased c.toNat

/-- The lower-case form of one character between the characters `before` it,
nearest first, and those `after` it. -/
def lowerBetween (before : List Char) (c : Char) (after : List Char) :
    List Char :=
  if c = 'Σ' then
    if startsCased before && !startsCased after then ['ς'] else ['σ']
  else if c = '\u0130' then ['i', '\u0307']
  else [lowerChar c]

/-- The lower-case form of the characters that follow `before`. -/
def lowerAfter (before : List Char) : List Char → List Char
  | [] => []
  | c :: after => lowerBetween before c after ++ lowerAfter (c :: before) after

/-- The lower-case form of a text. -/
def lowerCase (text : String) : String :=
  String.ofList (lowerAfter [] text.toList)

/-- The lower-case form as far as ASCII letters go. -/
def lowerAscii (text : String) : String :=
  String.ofList (text.toList.map Char.toLower)

end Cardfile.Text
