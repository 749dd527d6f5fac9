/-! # Paths

A path is a text cut into segments by slashes; one that begins with a slash is absolute. Empty
segments and single dots within a path mean nothing. What a path says of its last segment is said
of the last one that means something.
-/
namespace DotMatrix

structure Path where
  text : String
  deriving DecidableEq, Repr, Inhabited

namespace Path

/-- The pieces between the slashes, of which there is always one. -/
def pieces : List Char → List (List Char)
  | [] => [[]]
  | c :: rest =>
    if c = '/' then [] :: pieces rest
    else match pieces rest with
      | [] => [[c]]
      | piece :: more => (c :: piece) :: more

def segments (p : Path) : List String := (pieces p.text.toList).map String.ofList

/-- The path with these segments; a lone empty one stands for the root. -/
def ofSegments : List String → Path
  | [""] => ⟨"/"⟩
  | l => ⟨"/".intercalate l⟩

def isAbsolute (p : Path) : Bool := p.text.toList.head? == some '/'

def isEmpty (p : Path) : Bool := p.text.isEmpty

def isIdle (segment : String) : Bool := segment == "" || segment == "."

def dropIdleEnd (l : List String) : List String := (l.reverse.dropWhile isIdle).reverse

/-- The first segment, and the others up to the last that means something. -/
def split (p : Path) : String × List String :=
  match p.segments with
  | [] => ("", [])
  | first :: rest => (first, dropIdleEnd rest)

def fileName? (p : Path) : Option String :=
  match p.split with
  | (first, []) => if isIdle first || first == ".." then none else some first
  | (_, rest) => rest.getLast?.filter (· != "..")

/-- A name cut at its last dot; a dot in front does not count. -/
def cutName (name : String) : String × Option String :=
  let behind := name.toList.reverse.takeWhile (· != '.')
  let before := (name.toList.reverse.drop (behind.length + 1)).reverse
  if before.isEmpty then (name, none)
  else (String.ofList before, some (String.ofList behind.reverse))

def stem? (p : Path) : Option String := p.fileName?.map fun name => (cutName name).1

def extension? (p : Path) : Option String := p.fileName?.bind fun name => (cutName name).2

/-- Where the last segment is looked for. The root has no parent, and neither has an empty path. -/
def parent? (p : Path) : Option Path :=
  match p.split with
  | ("", []) => none
  | (_, []) => some ⟨""⟩
  | (first, rest) => some (ofSegments (first :: dropIdleEnd rest.dropLast))

/-- The places that lead to a path, the nearest first, of those that end within the segments
`rest` behind the first one; `rest` is given from its end. -/
def placesAbove (first : String) : List String → List Path
  | [] => if first = "" then [] else [⟨first⟩]
  | s :: rest =>
    if isIdle s then placesAbove first rest
    else ofSegments (first :: (s :: rest).reverse) :: placesAbove first rest

def ancestors (p : Path) : List Path :=
  match p.split with
  | (_, []) => []
  | (first, rest) => placesAbove first rest.dropLast.reverse

/-- The path of a name below a directory. An absolute name stands for itself. -/
def join (directory : Path) (name : String) : Path :=
  if directory.isEmpty || (Path.mk name).isAbsolute then ⟨name⟩
  else if directory.text.toList.getLast? == some '/' then ⟨directory.text ++ name⟩
  else ⟨directory.text ++ "/" ++ name⟩

end Path
end DotMatrix
