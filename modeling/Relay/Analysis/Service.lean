import Relay.Text.Pieces
import Relay.Text.Word

/-!
# Outside services

Services are called through wrapper modules.  The specifier of a wrapper gives
the family of services behind it, and the name of a wrapper's method says which
argument holds the template of the request.
-/

namespace Relay.Analysis

open Text

/-- Specifiers of the http client contain this text. -/
def httpClientMark : String := "@opus/agl-utils"

/-- What stands before the name of a wrapper in its specifier. -/
def wrapperMark : String := "/wrapper/request/"

/-- The tails of a text, the longest first. -/
def tails {α : Type} : List α → List (List α)
  | [] => [[]]
  | a :: rest => (a :: rest) :: tails rest

/-- A text holds another one. -/
def holds (mark s : String) : Bool :=
  (tails s.toList).any mark.toList.isPrefixOf

/-- The end of a text, or a line feed that ends it. -/
def atEnd (cs : List Char) : Bool :=
  cs.isEmpty || cs == ['\n']

/-- The name of the wrapper file at the front of a text that ends with it. -/
def wrapperName? (cs : List Char) : Option String :=
  let (name, rest) := cs.span isWordChar
  if !name.isEmpty && (atEnd rest ||
      (".js".toList.isPrefixOf rest && atEnd (rest.drop 3))) then
    some (String.ofList name)
  else none

/-- The family of services that a wrapper stands for. -/
def familyOfWrapper (name : String) : String :=
  if name = "es" then "elasticsearch" else name

/-- The family of services behind a required module. -/
def familyOf? (specifier : String) : Option String :=
  if holds httpClientMark specifier then some "http"
  else
    ((tails specifier.toList).findSome? fun cs =>
      if wrapperMark.toList.isPrefixOf cs then
        wrapperName? (cs.drop wrapperMark.length)
      else none).map
      familyOfWrapper

/-- Where a wrapper's method takes its template from. -/
inductive TemplatePlace where
  | argument (index : Nat)
  | nowhere
deriving DecidableEq

/-- The methods whose template has a known place. -/
def templatePlaces : List (String × TemplatePlace) :=
  [("callAVSDCQTemplate", .argument 4), ("callDCQ", .argument 6),
    ("callAVS", .argument 4), ("callAVSB2C", .argument 2),
    ("callAVSB2CWithFullResponse", .argument 2), ("callAVSB2B", .argument 3),
    ("callAVSB2BWithFullResponse", .argument 3),
    ("callAVSB2BVersioned", .argument 4),
    ("callAVSB2BVersionedWithFullResponse", .argument 4),
    ("callAVSESTemplate", .argument 2),
    ("callDcqDecoupledESTemplate", .argument 2), ("callES", .argument 3),
    ("callESTemplate", .argument 3), ("callExternal", .argument 3),
    ("callDsf", .argument 2), ("callAVSDCQSearch", .nowhere),
    ("callAVSESSearch", .argument 2), ("callPinboard", .argument 3),
    ("callAVA", .argument 3), ("callGetAggregatedContentDetail", .nowhere),
    ("callGetLiveContentMetadata", .nowhere),
    ("callGetLiveChannelList", .nowhere), ("callGetLiveInfo", .nowhere),
    ("callGetVodContentMetadata", .nowhere),
    ("callGetLauncherMetadata", .nowhere), ("callGetEpg", .nowhere),
    ("callSearchSuggestions", .nowhere), ("callSearchVodEvents", .nowhere),
    ("callSearchContents", .nowhere)]

/-- A text without a line feed that ends it. -/
def withoutFinalLineFeed (s : String) : String :=
  if s.toList.getLast? == some '\n' then String.ofList s.toList.dropLast else s

/-- The place of the template of a method, if it is known. -/
def templatePlace? (method : String) : Option TemplatePlace :=
  templatePlaces.lookup (withoutFinalLineFeed method)

/-- The argument that may hold the template of a method whose template has no
known place. -/
def usualTemplatePlace : Nat := 4

/-- A method that may take its template from the usual place. -/
def isServiceMethod (method : String) : Bool :=
  let name := withoutFinalLineFeed method
  startsWith name "call" && (name.toList.drop 4).all isWordChar

/-- The name of a method without the word that it starts with. -/
def shortMethodName (method : String) : String :=
  if startsWith method "call" then dropChars 4 method else method

/-- Methods of the http client. -/
def httpMethods : List String := ["httpClient", "forwardRequest"]

/-- The verbs of http requests. -/
def httpVerbs : List String := ["GET", "POST", "PUT", "DELETE"]

end Relay.Analysis
