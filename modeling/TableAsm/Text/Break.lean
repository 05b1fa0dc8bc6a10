import TableAsm.Text.Property
import TableAsm.Text.Script

/-!
Classes of characters at the borders of grapheme clusters, words and sentences, as Unicode Text
Segmentation defines them. A character is in at most one class of each of the three divisions.
-/
namespace TableAsm.Break

/-- Tags: they belong to the character before them. -/
def tags : CharSet := .ofChart ["E0020-E007F"]

/-- Marks that belong to the character before them. -/
def extending : CharSet := Property.graphemeExtend.union Property.emojiModifier

/-- Format characters that belong to no other character. -/
def format : CharSet :=
  Category.format.diff (.unions
    [Property.prependedConcatenationMark, Property.joinControl, tags])

/-- Numbers and the marks that stand before them. -/
def numeric : CharSet :=
  .unions [Category.decimalNumber, Property.prependedConcatenationMark.diff (.ofChart ["70F"]),
    .ofChart ["66B 19DA"]]

/-! Grapheme clusters -/

def control : CharSet :=
  (CharSet.unions [Category.control, format, Category.lineSeparator, Category.paragraphSeparator,
    Property.defaultIgnorableCodePoint.inter Category.unassigned]).diff (.ofList ['\n', '\r'])

/-- Characters that belong to the character after them. -/
def prepend : CharSet :=
  Property.prependedConcatenationMark.union (.ofChart
    ["D4E 111C2-111C3 113D1 1193F 11941 11A3A 11A84-11A89 11D46 11F02"])

def spacingMark : CharSet :=
  (Category.spacingMark.diff (.unions [Property.graphemeExtend, .ofChart
    ["102B-102C 1038 1062-1064 1067-106D 1083 1087-108C 108F 109A-109C 1A61 1A63-1A64 AA7B AA7D",
     "11720-11721"]])).union (.ofChart ["E33 EB3"])

/-- The Korean syllables without a final consonant; each is followed by the twenty-seven that
add one to it. -/
def openSyllable : CharSet :=
  ⟨(List.range 399).map fun i => ⟨0xAC00 + 28 * i, 0xAC00 + 28 * i⟩⟩

def closedSyllable : CharSet := (CharSet.ofChart ["AC00-D7A3"]).diff openSyllable

/-- Every class of grapheme clusters under its names. -/
def clusterRows : List NamedSet :=
  [ ⟨["CR"], .singleton '\r'⟩,
    ⟨["LF"], .singleton '\n'⟩,
    ⟨["Control", "CN"], control⟩,
    ⟨["Extend", "EX"], extending⟩,
    ⟨["ZWJ"], .ofChart ["200D"]⟩,
    ⟨["Regional_Indicator", "RI"], Property.regionalIndicator⟩,
    ⟨["Prepend", "PP"], prepend⟩,
    ⟨["SpacingMark", "SM"], spacingMark⟩,
    ⟨["L"], .ofChart ["1100-115F A960-A97C"]⟩,
    ⟨["V"], .ofChart ["1160-11A7 D7B0-D7C6 16D63 16D67-16D6A"]⟩,
    ⟨["T"], .ofChart ["11A8-11FF D7CB-D7FB"]⟩,
    ⟨["LV"], openSyllable⟩,
    ⟨["LVT"], closedSyllable⟩
  ]

/-! Words -/

def katakana : CharSet := .ofChart
  ["3031-3035 309B-309C 30A0-30FA 30FC-30FF 31F0-31FF 32D0-32FE 3300-3357 FF66-FF9D 1AFF0-1AFF3",
   "1AFF5-1AFFB 1AFFD-1AFFE 1B000 1B120-1B122 1B155 1B164-1B167"]

def hebrewLetter : CharSet := (Script.named "Hebrew").inter Category.otherLetter

/-- Letters of scripts that put no blanks between words. -/
def unspacedLetter : CharSet := .ofChart
  ["E01-E30 E32-E33 E40-E46 E81-E82 E84 E86-E8A E8C-EA3 EA5 EA7-EB0 EB2-EB3 EBD EC0-EC4 EC6",
   "EDC-EDF 1000-102A 103F 1050-1055 105A-105D 1061 1065-1066 106E-1070 1075-1081 108E 1780-17B3",
   "17D7 17DC 1950-196D 1970-1974 1980-19AB 19B0-19C9 1A20-1A54 1AA7 A9E0-A9E4 A9E6-A9EF",
   "A9FA-A9FE AA60-AA76 AA7A AA7E-AAAF AAB1 AAB5-AAB6 AAB9-AABD AAC0 AAC2 AADB-AADD 11700-1171A",
   "11740-11746"]

def wordLetter : CharSet :=
  (Property.alphabetic.diff (.unions
    [Property.ideographic, katakana, Script.named "Hiragana", hebrewLetter, unspacedLetter,
      extending, Category.spacingMark])).union (.ofChart
    ["2C2-2C5 2D2-2D7 2DE-2DF 2E5-2EB 2ED 2EF-2FF 55A-55C 55E 58A 5F3 70F A708-A716 A720-A721",
     "A789-A78A AB5B"])

/-- Every class of words under its names. -/
def wordRows : List NamedSet :=
  [ ⟨["CR"], .singleton '\r'⟩,
    ⟨["LF"], .singleton '\n'⟩,
    ⟨["Newline", "NL"], .ofChart ["B-C 85 2028-2029"]⟩,
    ⟨["Extend"], extending.union Category.spacingMark⟩,
    ⟨["ZWJ"], .ofChart ["200D"]⟩,
    ⟨["Format", "FO"], format.diff (.ofChart ["200B"])⟩,
    ⟨["Regional_Indicator", "RI"], Property.regionalIndicator⟩,
    ⟨["Katakana", "KA"], katakana⟩,
    ⟨["Hebrew_Letter", "HL"], hebrewLetter⟩,
    ⟨["ALetter", "LE"], wordLetter⟩,
    ⟨["Single_Quote", "SQ"], .ofChart ["27"]⟩,
    ⟨["Double_Quote", "DQ"], .ofChart ["22"]⟩,
    ⟨["MidNumLet", "MB"], .ofChart ["2E 2018-2019 2024 FE52 FF07 FF0E"]⟩,
    ⟨["MidLetter", "ML"], .ofChart ["3A B7 387 55F 5F4 2027 FE13 FE55 FF1A"]⟩,
    ⟨["MidNum", "MN"], .ofChart ["2C 3B 37E 589 60C-60D 66C 7F8 2044 FE50 FE54 FF0C FF1B"]⟩,
    ⟨["Numeric", "NU"], numeric⟩,
    ⟨["ExtendNumLet", "EX"], .ofChart ["5F 202F 203F-2040 2054 FE33-FE34 FE4D-FE4F FF3F"]⟩,
    ⟨["WSegSpace"], Category.spaceSeparator.diff (.ofChart ["A0 2007 202F"])⟩
  ]

/-! Sentences -/

def sentenceExtend : CharSet :=
  .unions [Property.graphemeExtend, Category.spacingMark, .ofChart ["200D"]]

/-- Sentences do not begin with capitals in Georgian, so its letters count as neither case. -/
def georgian : CharSet := .ofChart ["10D0-10FA 10FD-10FF 1C90-1CBA 1CBD-1CBF"]

def lower : CharSet := Property.lowercase.diff (Property.graphemeExtend.union georgian)

def upper : CharSet := (Property.uppercase.union Category.titlecaseLetter).diff georgian

def otherLetter : CharSet :=
  (Property.alphabetic.diff (.unions [lower, upper, sentenceExtend])).union (.ofChart ["5F3"])

/-- A full stop that may end a sentence or an abbreviation. -/
def fullStop : CharSet := .ofChart ["2E 2024 FE52 FF0E"]

def close : CharSet :=
  .unions [Category.openPunctuation, Category.closePunctuation, Category.initialPunctuation,
    Category.finalPunctuation, .ofChart ["22 27 275B-2760 2E00-2E01 2E06-2E08 2E0B 1F676-1F678"]]

def continuation : CharSet := .ofChart
  ["2C-2D 3A-3B 37E 55D 60C-60D 7F8 1802 1808 2013-2014 3001 FE10-FE11 FE13-FE14 FE31-FE32",
   "FE50-FE51 FE54-FE55 FE58 FE63 FF0C-FF0D FF1A-FF1B FF64"]

/-- Every class of sentences under its names. -/
def sentenceRows : List NamedSet :=
  [ ⟨["CR"], .singleton '\r'⟩,
    ⟨["LF"], .singleton '\n'⟩,
    ⟨["Sep", "SE"], .ofChart ["85 2028-2029"]⟩,
    ⟨["Extend", "EX"], sentenceExtend⟩,
    ⟨["Format", "FO"], format.union (.ofChart ["70F"])⟩,
    ⟨["Sp"], blanks.diff (.ofChart ["A D 85 2028-2029"])⟩,
    ⟨["Lower", "LO"], lower⟩,
    ⟨["Upper", "UP"], upper⟩,
    ⟨["OLetter", "LE"], otherLetter⟩,
    ⟨["Numeric", "NU"], numeric.union (.ofChart ["66C"])⟩,
    ⟨["ATerm", "AT"], fullStop⟩,
    ⟨["SContinue", "SC"], continuation⟩,
    ⟨["STerm", "ST"], Property.sentenceTerminal.diff fullStop⟩,
    ⟨["Close", "CL"], close⟩
  ]

end TableAsm.Break
