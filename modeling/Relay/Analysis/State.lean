import Relay.Analysis.Chain

/-!
# Shared state and its places

Middlewares of one request share two bags of state, which hang on the response
and on the request.  Besides these, the request and the response have facets
that are read from and written to.  The place of an access in a bag is the path
of its chain below the bag.
-/

namespace Relay.Analysis

open Syntax

/-- Names of methods and properties that every array, string or object has:
they say nothing about what is kept in a bag. -/
def nativeNames : List String :=
  ["length", "indexOf", "find", "filter", "map", "reduce", "forEach", "some",
    "every", "includes", "slice", "concat", "join", "keys", "values", "entries",
    "at", "toString", "hasOwnProperty", "flat",
    "flatMap", "toLocaleString", "constructor", "isPrototypeOf",
    "propertyIsEnumerable", "valueOf", "reduceRight", "findIndex"]

/-- Names that a request goes by. -/
def requestNames : List String := ["req", "request"]

/-- Names that a response goes by. -/
def responseNames : List String := ["res", "response"]

/-- Some steps without the native names at their end. -/
def dropNatives (steps : List String) : List String :=
  (steps.reverse.dropWhile nativeNames.contains).reverse

/-- A path without the native names at its end; there is none when nothing else
is left. -/
def stripNatives? (path : String) : Option String :=
  match dropNatives (Text.split '.' path) with
  | [] => none
  | steps => some (Text.join "." steps)

/-- The place of a bag that is used as a whole. -/
def wholeBag : String := "(direct)"

/-- The bags of state that middlewares share. -/
inductive Bag where
  | locals
  | transaction
deriving DecidableEq

namespace Bag

/-- All bags, in the order in which an access is held against them. -/
def all : List Bag := [locals, transaction]

/-- The names of what a bag hangs on. -/
def roots : Bag → List String
  | locals => responseNames
  | transaction => requestNames

/-- The name of the bag there. -/
def inner : Bag → String
  | locals => "locals"
  | transaction => "transaction"

/-- A chain is the bag itself. -/
def isItself (b : Bag) (c : Chain) : Bool :=
  c.isItself b.roots b.inner

/-- The place in the bag that a chain leads to.  Native names at the end do not
count in the locals, and only the transaction is of interest as a whole. -/
def placeOf? (b : Bag) (c : Chain) : Option String :=
  match b, c.pathBelow? b.roots b.inner with
  | locals, some path => stripNatives? path
  | locals, none => none
  | transaction, some path => some path
  | transaction, none => if b.isItself c then some wholeBag else none

end Bag

/-- What is read from a request and written to a response. -/
inductive Facet where
  | query | body | params | requestHeaders | requestCookies | responseCookie
  | responseHeader
deriving DecidableEq

namespace Facet

/-- All facets, in the order in which an access is held against them. -/
def all : List Facet :=
  [query, body, params, requestHeaders, requestCookies, responseCookie,
    responseHeader]

/-- The name of a facet in reports. -/
def name : Facet → String
  | query => "req.query"
  | body => "req.body"
  | params => "req.params"
  | requestHeaders => "req.headers"
  | requestCookies => "req.cookies"
  | responseCookie => "res.cookie"
  | responseHeader => "res.header"

/-- The names of what a facet belongs to. -/
def roots : Facet → List String
  | responseCookie | responseHeader => responseNames
  | _ => requestNames

/-- The name of the facet there. -/
def inner : Facet → String
  | query => "query"
  | body => "body"
  | params => "params"
  | requestHeaders | responseHeader => "headers"
  | requestCookies | responseCookie => "cookies"

/-- The place in the facet that a chain leads to. -/
def placeOf? (f : Facet) (c : Chain) : Option String :=
  c.pathBelow? f.roots f.inner

/-- The facet that a method of the response writes. -/
def writtenBy? (method : String) : Option Facet :=
  match method with
  | "cookie" => some responseCookie
  | "setHeader" | "set" | "header" => some responseHeader
  | _ => none

end Facet

end Relay.Analysis
