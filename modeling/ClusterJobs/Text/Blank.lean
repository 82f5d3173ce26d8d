/-!
# Blank characters

Which characters count as blank when a text is trimmed or tested for content. The test is the
Unicode property `White_Space`, so that a no-break space or an ideographic space around a name is
treated like an ordinary one.
-/

namespace ClusterJobs.Text

/-- The character has the Unicode property `White_Space`. -/
def isBlank (c : Char) : Bool :=
  let n := c.toNat
  (0x9 ≤ n && n ≤ 0xD) || n == 0x20 || n == 0x85 || n == 0xA0 || n == 0x1680 ||
    (0x2000 ≤ n && n ≤ 0x200A) || n == 0x2028 || n == 0x2029 || n == 0x202F || n == 0x205F ||
    n == 0x3000

/-- The characters without the blanks at either end. -/
def trimChars (cs : List Char) : List Char :=
  ((cs.dropWhile isBlank).reverse.dropWhile isBlank).reverse

/-- The text without the blanks at either end. -/
def trim (s : String) : String :=
  String.ofList (trimChars s.toList)

/-- The text holds nothing but blanks. -/
def isBlankText (s : String) : Bool :=
  s.toList.all isBlank

/-- The upper-case form of the ASCII letters; every other character stays. -/
def upperAscii (s : String) : String :=
  String.ofList (s.toList.map Char.toUpper)

/-- Whether `small` stands at the start of `cs`, and what follows it. -/
def dropLeading? : List Char → List Char → Option (List Char)
  | [], cs => some cs
  | _ :: _, [] => none
  | s :: small, c :: cs => if s = c then dropLeading? small cs else none

/-- The pieces of `cs` between the characters that satisfy `isSep`; always at least one piece. -/
def splitOnChar (isSep : Char → Bool) : List Char → List (List Char)
  | [] => [[]]
  | c :: cs =>
    match splitOnChar isSep cs with
    | [] => [[]]
    | piece :: pieces => if isSep c then [] :: piece :: pieces else (c :: piece) :: pieces

/-- Joins texts with a separator between neighbours. -/
def joinWith (separator : String) : List String → String
  | [] => ""
  | [s] => s
  | s :: rest => s ++ separator ++ joinWith separator rest

end ClusterJobs.Text
