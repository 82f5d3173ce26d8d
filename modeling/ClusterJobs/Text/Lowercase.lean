import ClusterJobs.Text.Lowercase.Table

/-!
# Lower case

The lower-case form of a text by the full rules of the character standard: one character may become
two, and a capital sigma at the end of a word becomes the final sigma.
-/

namespace ClusterJobs.Text

/-- Whether a run of the case table covers a code point. -/
def CaseRun.covers (r : CaseRun) (n : Nat) : Bool :=
  r.first ≤ n && n ≤ r.last && (n - r.first) % r.step == 0

/-- The lower-case form of one character, away from the rule for the final sigma. -/
def lowerChar (c : Char) : List Char :=
  let n := c.toNat
  if n < 0x80 then [c.toLower]
  else if n == 0x130 then ['i', Char.ofNat 0x307]
  else
    match caseRuns.find? (·.covers n) with
    | some r => [Char.ofNat ((n : Int) + r.delta).toNat]
    | none => [c]

/-- The character has case. -/
def isCased (c : Char) : Bool :=
  casedRanges.any fun r => r.1 ≤ c.toNat && c.toNat ≤ r.2

/-- Case rules skip the character. -/
def isCaseIgnorable (c : Char) : Bool :=
  caseIgnorableRanges.any fun r => r.1 ≤ c.toNat && c.toNat ≤ r.2

/-- The first character that case rules do not skip has case. -/
def startsCased (cs : List Char) : Bool :=
  match cs.dropWhile isCaseIgnorable with
  | c :: _ => isCased c
  | [] => false

/-- Lowers a text; `before` holds the characters already passed, last first. A capital sigma is final
when a cased letter precedes it and none follows. -/
def lowerFrom (before : List Char) : List Char → List Char
  | [] => []
  | c :: cs =>
    let here :=
      if c.toNat == 0x3A3 then
        if startsCased before && !startsCased cs then [Char.ofNat 0x3C2] else [Char.ofNat 0x3C3]
      else lowerChar c
    here ++ lowerFrom (c :: before) cs

/-- The lower-case form of a text. -/
def lower (s : String) : String :=
  String.ofList (lowerFrom [] s.toList)

end ClusterJobs.Text
