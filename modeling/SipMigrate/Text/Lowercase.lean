import SipMigrate.Text.CaseTable

/-! Full lowercasing. Every character has a lowercase form of its own but the
capital sigma, which becomes a final sigma at the end of a word: a cased letter
comes before it and none after it, case-ignorable characters not counted. The
capital I with a dot above becomes two characters. -/

namespace SipMigrate.Text

def isCased (c : Char) : Bool := casedRanges.contains c

def isCaseIgnorable (c : Char) : Bool := caseIgnorableRanges.contains c

def CaseRun.lower? (r : CaseRun) (n : Nat) : Option Nat :=
  if r.first ≤ n ∧ n ≤ r.last ∧ (n - r.first) % r.step = 0 then
    some (n + r.shift).toNat
  else none

/-- The lowercase form of a character, whatever stands around it. -/
def lowerChar (c : Char) : List Char :=
  if c = '\u0130' then ['i', '\u0307']
  else match caseRuns.findSome? (·.lower? c.toNat) with
    | some n => [Char.ofNat n]
    | none => [c]

/-- The first character that is not case-ignorable exists and is cased. -/
def startsCased (l : List Char) : Bool :=
  match l.dropWhile isCaseIgnorable with
  | c :: _ => isCased c
  | [] => false

def capitalSigma : Char := '\u03A3'

def smallSigma : Char := '\u03C3'

def finalSigma : Char := '\u03C2'

/-- Lowercases the characters that follow `before`, which is given last
character first. -/
def lowercaseAfter (before : List Char) : List Char → List Char
  | [] => []
  | c :: rest =>
    let lowered :=
      if c = capitalSigma then
        if startsCased before && !startsCased rest then [finalSigma] else [smallSigma]
      else lowerChar c
    lowered ++ lowercaseAfter (c :: before) rest

def lowercase (s : String) : String := String.ofList (lowercaseAfter [] s.toList)

end SipMigrate.Text
