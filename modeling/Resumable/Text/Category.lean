import Resumable.Text.Identifier

/-! The character classes that a selection pattern can name, and the folding that makes a pattern
blind to case. -/
namespace Resumable.Text

def upperRanges : List (Nat × Nat) :=
  rangesFrom 0
    [192,22,2,6,154,1,8,1,2,0,2,1,2,2,3,3,2,1,2,2,4,1,2,1,6,1,2,0,3,0,2,1,2,2,2,0,2,1,4,0,8,0,3,0,3,0,39,0,3,0,2,2,66,
     1,2,1,3,0,2,3,304,0,9,0,7,0,2,2,2,0,2,1,2,16,2,8,36,0,3,2,32,0,3,0,2,1,3,50,145,1,112,37,2890,37,2,0,6,0,723,85,
     2196,0,7,42,3,2,585,7,9,5,11,7,9,7,9,5,27,7,73,3,13,3,13,3,13,4,12,3,263,0,5,0,4,2,3,2,3,0,4,4,13,3,3,3,11,1,6,0,
     62,0,2685,47,49,0,2,2,9,3,2,0,3,0,9,2,114,0,31371,1,44,4,2,4,16,3,2,0,2,1,41,0,22316,25,1222,39,137,35,157,10,2,
     14,2,6,2,1,1771,50,158,21,2875,31,21889,31,65,24,25928,25,27,25,27,25,27,0,2,1,3,0,3,1,3,3,2,7,27,25,27,1,2,3,3,7,
     2,6,28,1,2,3,2,4,2,0,4,6,28,25,27,25,27,25,27,25,27,25,27,25,31,24,34,24,34,24,34,24,34,24,34,0,4406,33]

def upperTurns : List (Nat × Nat) :=
  rangesFrom 0
    [256,54,3,14,3,44,5,2,37,2,41,14,3,16,12,56,22,6,290,2,102,22,114,32,10,52,5,10,3,94,6354,148,10,96,91,6,453,4,
     2879,4,23,96,9,2,31059,44,20,26,136,12,4,60,11,2,5,6,5,2,3,2,4,18,14,12,12,14]

def lowerRanges : List (Nat × Nat) :=
  rangesFrom 0
    [181,0,42,23,2,7,56,1,16,1,53,2,8,0,4,1,5,0,3,0,4,2,3,0,10,0,2,1,2,0,3,0,9,1,3,2,7,0,3,0,19,1,18,1,67,6,3,0,3,1,2,
     0,13,68,3,25,200,0,4,2,19,0,28,34,2,1,4,2,24,4,2,0,3,0,3,1,52,47,111,1,145,40,2888,42,3,2,761,5,2179,8,2,0,118,43,
     64,12,2,33,251,8,98,8,9,5,11,7,9,7,9,5,11,7,9,7,9,13,3,7,9,7,9,7,9,4,2,1,7,0,4,2,2,1,9,3,3,1,9,7,11,2,2,1,275,0,4,
     1,4,0,28,0,5,0,5,0,3,1,9,3,5,0,54,0,2732,47,2,0,4,1,11,0,2,1,2,5,104,1,15,0,13,37,2,0,6,0,31234,2,64,7,25,0,2,2,
     26,0,71,0,4,0,822,42,6,8,8,79,20289,6,13,4,1066,25,1230,39,137,35,156,10,2,14,2,6,2,1,1796,50,126,21,2875,31,
     21889,31,60,24,25927,25,27,6,2,17,27,25,27,3,2,0,2,6,2,10,27,25,27,25,27,25,27,25,27,25,27,25,27,25,27,25,27,27,
     29,24,2,5,27,24,2,5,27,24,2,5,27,24,2,5,27,24,2,5,2,0,1845,9,2,19,7,5,2552,33]

def lowerTurns : List (Nat × Nat) :=
  rangesFrom 0
    [257,52,5,12,5,44,3,2,7,2,28,4,15,2,22,14,5,14,6,2,4,56,22,6,292,2,102,20,116,32,10,52,3,10,5,94,6354,146,12,94,
     3435,4,21,96,11,2,31059,44,20,26,136,10,6,60,11,2,3,8,5,2,9,18,12,14,5,2,3,14]

def digitRanges : List (Nat × Nat) :=
  rangesFrom 0
    [1632,9,135,9,199,9,413,9,119,9,119,9,119,9,119,9,119,9,119,9,119,9,119,9,119,9,97,9,119,9,71,9,279,9,71,9,1863,9,
     39,9,301,9,129,9,167,9,7,9,183,9,87,9,135,9,7,9,35271,9,679,9,39,9,199,9,23,9,87,9,407,9,21271,9,1415,9,2183,9,7,
     9,797,9,129,9,61,9,145,9,279,9,343,9,119,9,375,9,103,9,7,19,77,9,423,9,103,9,663,9,87,9,247,9,71,9,55,9,359,9,
     16855,9,2343,9,87,9,135,9,535,9,24439,9,2773,49,2369,9,423,9,503,9,248,9,854,9,4759,9]

/-- Numbers that are no decimal digits. -/
def numberNotDigitRanges : List (Nat × Nat) :=
  rangesFrom 0
    [178,1,6,0,3,2,2358,5,377,5,121,2,134,6,218,6,18,8,434,9,1078,19,882,2,256,9,481,0,1686,0,4,5,7,9,199,50,3,4,727,
     59,79,21,631,29,1386,0,778,0,26,8,15,2,344,3,139,9,31,7,2,14,33,9,40,14,29735,9,321,5,22738,44,13,56,18,1,342,26,
     37,3,30,0,9,0,135,4,1155,7,26,6,40,8,76,4,23,5,161,1,3,15,3,45,65,8,53,1,31,2,76,4,105,7,25,7,42,6,331,5,353,30,
     159,9,43,3,113,6,135,19,380,19,1350,1,431,8,872,18,852,20,1068,110,18157,6,799,22,350,2,25290,19,13,19,109,24,
     5455,8,930,58,2,2,2,3,77,44,2,14,963,12]

/-- Code points that start an identifier without being letters. -/
def startNotLetterRanges : List (Nat × Nat) :=
  rangesFrom 0
    [5870,2,405,1,2194,0,22,0,50,34,3,3,3711,0,26,8,15,2,97,1,30282,9,23121,52,461,0,9,0,135,4,8235,110,19334,2]

/-- Code points that continue an identifier without being word characters. -/
def partNotWordRanges : List (Nat × Nat) :=
  rangesFrom 0
    [183,0,720,0,4066,8,1641,0,1854,0,22,0,3949,1,95,0,52842,0]

/-- Word characters that cannot continue an identifier. -/
def wordNotPartRanges : List (Nat × Nat) :=
  rangesFrom 0
    [1160,1,5685,0,1567,3,2,2,978,51,2374,0,30785,2,84670,25,7,25,7,25]

def spaceRanges : List (Nat × Nat) :=
  rangesFrom 0
    [133,0,27,0,5600,0,2432,10,30,1,6,0,48,0,4001,0]

def isUpper (c : Char) : Bool :=
  if c.toNat < 128 then 'A' ≤ c && c ≤ 'Z'
  else inRanges upperRanges c.toNat || inTurns upperTurns c.toNat

def isLower (c : Char) : Bool :=
  if c.toNat < 128 then 'a' ≤ c && c ≤ 'z'
  else inRanges lowerRanges c.toNat || inTurns lowerTurns c.toNat

def isLetter (c : Char) : Bool :=
  if c.toNat < 128 then isAsciiLetter c
  else (inRanges startRanges c.toNat && !inRanges startNotLetterRanges c.toNat) || c.toNat == 0x2E2F

def isDecimalDigit (c : Char) : Bool := isAsciiDigit c || inRanges digitRanges c.toNat
def isNumber (c : Char) : Bool := isDecimalDigit c || inRanges numberNotDigitRanges c.toNat

def isWord (c : Char) : Bool :=
  if c.toNat < 128 then isAsciiLetter c || isAsciiDigit c || c == '_'
  else (isIdentifierPart c && !inRanges partNotWordRanges c.toNat)
    || inRanges wordNotPartRanges c.toNat

def isSpace (c : Char) : Bool := c == ' ' || ('\t' ≤ c && c ≤ '\r') || inRanges spaceRanges c.toNat

/-- A run `(low, high, step, distance)` moves each of its code points by `distance`. Runs are written as
ranges are. -/
def foldsFrom (last : Nat) : List Int → List (Nat × Nat × Nat × Int)
  | gap :: length :: step :: distance :: rest =>
    let low := last + gap.toNat
    let high := low + length.toNat
    (low, high, step.toNat, distance) :: foldsFrom high rest
  | _ => []

def foldRuns : List (Nat × Nat × Nat × Int) :=
  foldsFrom 0
    [181,0,1,775,11,22,1,32,2,6,1,32,34,46,2,1,4,4,2,1,3,14,2,1,3,44,2,1,2,0,1,-121,1,4,2,1,2,0,1,-268,2,0,1,210,1,2,2,
     1,2,0,1,206,1,0,1,1,2,1,1,205,1,0,1,1,3,0,1,79,1,0,1,202,1,0,1,203,1,0,1,1,2,0,1,205,1,0,1,207,2,0,1,211,1,0,1,
     209,1,0,1,1,4,0,1,211,1,0,1,213,2,0,1,214,1,4,2,1,2,0,1,218,1,0,1,1,2,0,1,218,3,0,1,1,2,0,1,218,1,0,1,1,2,1,1,217,
     1,2,2,1,2,0,1,219,1,0,1,1,4,0,1,1,8,0,1,2,1,0,1,1,2,0,1,2,1,0,1,1,2,0,1,2,1,16,2,1,3,16,2,1,3,0,1,2,1,2,2,1,2,0,1,
     -97,1,0,1,-56,1,38,2,1,2,0,1,-130,2,16,2,1,8,0,1,10795,1,0,1,1,2,0,1,-163,1,0,1,10792,3,0,1,1,2,0,1,-195,1,0,1,69,
     1,0,1,71,1,8,2,1,247,0,1,116,43,2,2,1,4,0,1,1,9,0,1,116,7,0,1,38,2,2,1,37,2,0,1,64,2,1,1,63,2,16,1,32,2,8,1,32,23,
     0,1,1,13,0,1,8,1,0,1,-30,1,0,1,-25,4,0,1,-15,1,0,1,-22,2,22,2,1,2,0,1,-54,1,0,1,-48,3,0,1,-60,1,0,1,-64,2,0,1,1,2,
     0,1,-7,1,0,1,1,3,2,1,-130,1,15,1,80,1,31,1,32,49,32,2,1,10,52,2,1,2,0,1,15,1,12,2,1,3,94,2,1,3,37,1,48,2890,37,1,
     7264,2,0,1,7264,6,0,1,7264,811,5,1,-8,2179,0,1,-6222,1,0,1,-6221,1,0,1,-6212,1,1,1,-6210,1,0,1,-6211,1,0,1,-6204,
     1,0,1,-6180,1,0,1,35267,8,42,1,-3008,3,2,1,-3008,321,148,2,1,7,0,1,-58,3,0,1,-7615,2,94,2,1,10,7,1,-8,9,5,1,-8,11,
     7,1,-8,9,7,1,-8,9,5,1,-8,12,6,2,-8,9,7,1,-8,25,7,1,-8,9,7,1,-8,9,7,1,-8,9,1,1,-8,1,1,1,-74,1,0,1,-9,2,0,1,-7173,
     10,3,1,-86,1,0,1,-9,12,1,1,-8,1,1,1,-100,13,1,1,-8,1,1,1,-112,1,0,1,-7,12,1,1,-128,1,1,1,-126,1,0,1,-9,298,0,1,
     -7517,4,0,1,-8383,1,0,1,-8262,7,0,1,28,46,15,1,16,20,0,1,1,819,25,1,26,1841,47,1,48,49,0,1,1,2,0,1,-10743,1,0,1,
     -3814,1,0,1,-10727,3,4,2,1,2,0,1,-10780,1,0,1,-10749,1,0,1,-10783,1,0,1,-10782,2,0,1,1,3,0,1,1,9,1,1,-10815,1,98,
     2,1,9,2,2,1,5,0,1,1,31054,44,2,1,20,26,2,1,136,12,2,1,4,60,2,1,11,2,2,1,2,0,1,-35332,1,8,2,1,5,0,1,1,2,0,1,-42280,
     3,2,2,1,4,18,2,1,2,0,1,-42308,1,0,1,-42319,1,0,1,-42315,1,0,1,-42305,1,0,1,-42308,2,0,1,-42258,1,0,1,-42282,1,0,1,
     -42261,1,0,1,928,1,14,2,1,2,0,1,-48,1,0,1,-42307,1,0,1,-35384,1,2,2,1,7,0,1,1,6,2,2,1,29,0,1,1,891,79,1,-38864,
     21346,25,1,32,1222,39,1,40,137,35,1,40,157,10,1,39,2,14,1,39,2,6,1,39,2,1,1,39,1771,50,1,64,3054,31,1,32,21889,31,
     1,32,31393,33,1,34]

/-- One representative for the spellings of a letter that differ in case alone. -/
def fold (c : Char) : Char :=
  if c.toNat < 128 then
    if 'A' ≤ c && c ≤ 'Z' then Char.ofNat (c.toNat + 32) else c
  else
    match foldRuns.find? fun (low, high, step, _) =>
        low ≤ c.toNat && c.toNat ≤ high && (c.toNat - low) % step == 0 with
    | some (_, _, _, distance) => Char.ofNat (Int.toNat (c.toNat + distance))
    | none => c

end Resumable.Text
