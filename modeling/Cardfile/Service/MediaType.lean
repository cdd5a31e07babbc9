/-!
# Media types

The content of a request is JSON if its media type says so: the type is
`application`, and the subtype is `json` or one of its two parts around a plus
is.  Parameters may follow, but have to be well formed.
-/

namespace Cardfile.Service

/-- Whether a character may be part of a name in a media type. -/
def isTokenChar (c : Char) : Bool :=
  c.isAlphanum || "!#$%&'*+-.^_|~\x60".toList.contains c

/-- Whether a character may be part of a quoted parameter. -/
def isQuotable (c : Char) : Bool :=
  32 ≤ c.toNat && c.toNat != 127

/-- The text behind a parameter in quotes, from behind the opening quote on.
There is a character between the quotes at least. -/
def dropQuoted? : List Char → Option (List Char)
  | [] => none
  | first :: rest =>
      if isQuotable first then
        match rest.dropWhile fun c => isQuotable c && c != '"' with
        | '"' :: rest => some (rest.dropWhile (· == ' '))
        | _ => none
      else none

/-- The text behind the value of a parameter. -/
def dropValue? : List Char → Option (List Char)
  | '"' :: rest => dropQuoted? rest
  | ';' :: _ => none
  | cs => some (cs.dropWhile isTokenChar)

/-- The text behind the next parameter and its semicolon. -/
def dropParameter? (cs : List Char) : Option (List Char) :=
  match cs.takeWhile isTokenChar, cs.dropWhile isTokenChar with
  | _ :: _, '=' :: value =>
      match dropValue? value with
      | some [] => some []
      | some (';' :: rest) => some rest
      | _ => none
  | _, _ => none

/-- Whether at most `count` parameters fill a text.  Blanks may stand before
each of them. -/
def areParameters : Nat → List Char → Bool
  | 0, cs => cs.all (· == ' ')
  | count + 1, cs =>
      match cs.dropWhile (· == ' ') with
      | [] => true
      | cs => (dropParameter? cs).any (areParameters count)

/-- What may follow a media type: nothing, or parameters behind a semicolon or
a blank. -/
def isEnding : List Char → Bool
  | [] => true
  | c :: rest => (c == ';' || c == ' ') && areParameters rest.length rest

/-- The parts of a subtype before and behind its last plus.  A plus at the
front does not count. -/
def splitSubtype (subtype : List Char) : List (List Char) :=
  let reversed := subtype.reverse
  match reversed.dropWhile (· != '+') with
  | _ :: c :: base =>
      [(c :: base).reverse, (reversed.takeWhile (· != '+')).reverse]
  | _ => [subtype]

/-- Whether a media type says that the content is JSON. -/
def isJson (mediaType : String) : Bool :=
  let cs := mediaType.toList
  let kind := cs.takeWhile isTokenChar
  match cs.dropWhile isTokenChar with
  | '/' :: rest =>
      let subtype := (rest.takeWhile isTokenChar).map Char.toLower
      cs.all (fun c => c == '\t' || (32 ≤ c.toNat && c.toNat < 127)) &&
        kind.map Char.toLower == "application".toList &&
        (splitSubtype subtype).contains "json".toList &&
        isEnding (rest.dropWhile isTokenChar)
  | _ => false

end Cardfile.Service
