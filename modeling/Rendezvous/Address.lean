import Rendezvous.Text.Split

/-!
# Addresses

Where a server is reached: a host and a port. A host is either an IP address written out, which
needs no lookup, or a name. Version 4 is four decimal numbers below 256 without leading zeros;
version 6 is eight groups of hexadecimal digits, of which one run of zeros may be left out as a
double colon and the last two may be written as a version 4 address, with an optional scope
behind a percent sign.
-/

namespace Rendezvous

/-- A host and a port. -/
structure Address where
  host : String
  port : Int
  deriving DecidableEq, Repr

namespace Address

open Text

/-- One of the four numbers of a version 4 address. -/
def isOctet (s : List Char) : Bool :=
  !s.isEmpty && s.length ≤ 3 && s.all Char.isDigit && (s = ['0'] || s.head? ≠ some '0') &&
    s.foldl (fun n c => 10 * n + (c.toNat - 48)) 0 ≤ 255

/-- A version 4 address. -/
def isVersion4 (s : List Char) : Bool :=
  let parts := splitOn '.' s
  parts.length = 4 && parts.all isOctet

/-- The hexadecimal digits of either case. -/
def isHexDigit (c : Char) : Bool :=
  c.isDigit || ('a' ≤ c && c ≤ 'f') || ('A' ≤ c && c ≤ 'F')

/-- A group of a version 6 address. -/
def isGroup (s : List Char) : Bool := !s.isEmpty && s.length ≤ 4 && s.all isHexDigit

/-- How many groups the parts between colons stand for. A version 4 address may be the last part
and stands for two. -/
def countGroups : List (List Char) → Option Nat
  | [] => some 0
  | [last] => if isGroup last then some 1 else if isVersion4 last then some 2 else none
  | part :: rest => if isGroup part then (countGroups rest).map (· + 1) else none

/-- Both sides of the first double colon. -/
def cutDoubleColon : List Char → Option (List Char × List Char)
  | ':' :: ':' :: rest => some ([], rest)
  | c :: rest => (cutDoubleColon rest).map fun (before, after) => (c :: before, after)
  | [] => none

/-- The parts of one side of an address: none where nothing is written. -/
def groupsOf (s : List Char) : List (List Char) := if s.isEmpty then [] else splitOn ':' s

/-- A version 6 address without its scope. -/
def isGroups (s : List Char) : Bool :=
  match cutDoubleColon s with
  | none => countGroups (groupsOf s) = some 8
  | some (before, after) =>
    let left := groupsOf before
    left.all isGroup && (countGroups (groupsOf after)).any fun n => left.length + n ≤ 7

/-- A version 6 address, with or without a scope. -/
def isVersion6 (s : List Char) : Bool :=
  !s.contains '/' &&
    match cutAt '%' s with
    | none => isGroups s
    | some (address, scope) => isGroups address && !scope.isEmpty && !scope.contains '%'

/-- Whether a host is an address written out. -/
def isLiteral (host : String) : Bool := isVersion4 host.toList || isVersion6 host.toList

/-- Whether a host has to be looked up. -/
def needsLookup (host : String) : Bool := !isLiteral host

end Address

end Rendezvous
