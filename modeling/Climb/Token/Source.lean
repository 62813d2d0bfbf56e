import Climb.Token.Scanner

/-! Where tokens come from, one at a time. -/

namespace Climb

/-- A supply of tokens. -/
inductive Feed where
  /-- Given tokens, followed by the end or by a failure and then the end. -/
  | listed (tokens : List Token) (failure : Option Error)
  /-- The tokens of a text, read only as they are asked for. -/
  | scanned (text : Scanner)
  /-- A supply that never ends. -/
  | endless (supply : Nat → Token)

/-- Takes the next token of a supply; after a failure a supply is at its end. -/
def Feed.next : Feed → Except Error (Option Token) × Feed
  | listed (token :: rest) failure => (.ok (some token), listed rest failure)
  | listed [] none => (.ok none, listed [] none)
  | listed [] (some failure) => (.error failure, listed [] none)
  | endless supply => (.ok (some (supply 0)), endless fun place => supply (place + 1))
  | scanned text =>
    match text.next with
    | (.error failure, _) => (.error failure, listed [] none)
    | (outcome, after) => (outcome, scanned after)

/-- A bound on the tokens left in a supply, zero if it never ends. -/
def Feed.size : Feed → Nat
  | listed tokens _ => tokens.length
  -- Every token takes at least one character.
  | scanned text => text.rest.length
  | endless _ => 0

/-- A supply with a count of what it has delivered. -/
structure Source where
  feed : Feed
  /-- How many tokens have been taken. -/
  pulled : Nat := 0
  /-- How often the end has been reported. -/
  ends : Nat := 0

namespace Source

/-- A list of tokens as a source. -/
def ofTokens (tokens : List Token) : Source :=
  { feed := .listed tokens none }

/-- A text as a source. -/
def ofString (text : String) : Source :=
  { feed := .scanned (.ofString text) }

/-- Takes the next token and counts it. -/
def next (source : Source) : Except Error (Option Token) × Source :=
  match source.feed.next with
  | (.ok none, feed) => (.ok none, { source with feed := feed, ends := source.ends + 1 })
  | (.ok (some token), feed) =>
    (.ok (some token), { source with feed := feed, pulled := source.pulled + 1 })
  | (.error failure, feed) => (.error failure, { source with feed := feed })

end Source

end Climb
