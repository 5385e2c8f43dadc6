import LagForecast.Number.Digits
import LagForecast.Text.Basic

/-!
Socket addresses, read from a host with a port and written in their shortest form.
-/

set_option autoImplicit false

namespace LagForecast

/-- An address of four bytes, or of eight groups of 16 bits with a scope, and a port. -/
inductive SocketAddress where
  | v4 (bytes : List Nat) (port : Nat)
  | v6 (groups : List Nat) (scope port : Nat)
  deriving DecidableEq

namespace SocketAddress

def leadingNumber (radix : Nat) : List Char → List Nat × List Char
  | [] => ([], [])
  | c :: rest =>
    match Text.hexValue? c with
    | some d =>
      if d < radix then let (ds, after) := leadingNumber radix rest; (d :: ds, after)
      else ([], c :: rest)
    | none => ([], c :: rest)

def readNumber (radix width bound : Nat) (cs : List Char) : Option (Nat × List Char) :=
  let (ds, rest) := leadingNumber radix cs
  let n := ds.foldl (fun v d => radix * v + d) 0
  if ds = [] ∨ width < ds.length ∨ bound < n then none else some (n, rest)

/-- A byte in decimal digits; a zero in front of other digits is refused. -/
def readByte (cs : List Char) : Option (Nat × List Char) :=
  match cs with
  | '0' :: c :: _ => if (Digit.ofChar? c).isSome then none else readNumber 10 3 255 cs
  | _ => readNumber 10 3 255 cs

def readChar (c : Char) : List Char → Option (List Char)
  | [] => none
  | d :: rest => if d = c then some rest else none

def readBytes (cs : List Char) : Option (List Nat × List Char) := do
  let (a, cs) ← readByte cs
  let (b, cs) ← readByte (← readChar '.' cs)
  let (c, cs) ← readByte (← readChar '.' cs)
  let (d, cs) ← readByte (← readChar '.' cs)
  return ([a, b, c, d], cs)

/-- Groups with colons between them, at most `limit`, and whether the last two were written as
four bytes.  `first` says that no group was read before. -/
def readGroups (first : Bool) : Nat → List Char → List Nat × Bool × List Char
  | 0, cs => ([], false, cs)
  | limit + 1, cs =>
    match if first then some cs else readChar ':' cs with
    | none => ([], false, cs)
    | some start =>
      match if limit = 0 then none else readBytes start with
      | some ([a, b, c, d], rest) => ([256 * a + b, 256 * c + d], true, rest)
      | _ =>
        match readNumber 16 4 65535 start with
        | none => ([], false, cs)
        | some (g, rest) =>
          let (gs, mixed, after) := readGroups false limit rest
          (g :: gs, mixed, after)

/-- Eight groups, or fewer with two colons in place of the zeros that are left out. -/
def readLong (cs : List Char) : Option (List Nat × List Char) :=
  let (head, mixed, rest) := readGroups true 8 cs
  if head.length = 8 then some (head, rest)
  else if mixed then none
  else do
    let rest ← readChar ':' (← readChar ':' rest)
    let (tail, _, rest) := readGroups true (7 - head.length) rest
    return (head ++ List.replicate (8 - head.length - tail.length) 0 ++ tail, rest)

def readScope (cs : List Char) : Nat × List Char :=
  match (readChar '%' cs).bind fun cs => readNumber 10 cs.length 0xFFFFFFFF cs with
  | some r => r
  | none => (0, cs)

def ofHost? (host : String) (port : Nat) : Option SocketAddress :=
  match readBytes host.toList with
  | some (bytes, []) => some (.v4 bytes port)
  | _ => do
    let (groups, rest) ← readLong (← readChar '[' host.toList)
    let (scope, rest) := readScope rest
    if rest = [']'] then return .v6 groups scope port else none

def bytesText (bytes : List Nat) : String := ".".intercalate (bytes.map toString)

def groupsText (groups : List Nat) : String :=
  ":".intercalate (groups.map fun g => String.ofList (Text.hexNumber g))

def leadingZeros (l : List Nat) : Nat := (l.takeWhile (· = 0)).length

/-- Where the longest run of zeros starts, the first of the longest, and how long it is. -/
def longestZeros : Nat → List Nat → Nat × Nat
  | _, [] => (0, 0)
  | i, g :: rest =>
    let here := leadingZeros (g :: rest)
    let later := longestZeros (i + 1) rest
    if later.2 ≤ here then (i, here) else later

/-- The long form of an address: the longest run of at least two zeros is left out, and the last
two groups of a mapped short address are written as bytes. -/
def longText (groups : List Nat) : String :=
  match groups with
  | [0, 0, 0, 0, 0, 0xFFFF, g, h] =>
    "::ffff:" ++ bytesText [g / 256, g % 256, h / 256, h % 256]
  | _ =>
    let (start, count) := longestZeros 0 groups
    if 1 < count then
      groupsText (groups.take start) ++ "::" ++ groupsText (groups.drop (start + count))
    else groupsText groups

def text : SocketAddress → String
  | v4 bytes port => bytesText bytes ++ ":" ++ toString port
  | v6 groups scope port =>
    "[" ++ longText groups ++ (if scope = 0 then "" else "%" ++ toString scope) ++ "]:" ++
      toString port

end SocketAddress

end LagForecast
