import ShiftReduce.Unicode.Property
import ShiftReduce.Unicode.Script

/-!
# Classes for segmentation

The classes of characters by which version 16 of Unicode finds the boundaries of graphemes,
words and sentences in a text.
-/

namespace ShiftReduce.Unicode

/-- A class of characters with its names, the long one first. -/
structure SegmentClass where
  names : List String
  members : CodePoints

namespace SegmentClass

/-- A class of which the code points are written out. -/
def ofText (names : List String) (text : String) : SegmentClass :=
  ⟨names, CodePoints.ofText text⟩

/-! ### Graphemes -/

/-- The code points that extend the grapheme before them. -/
def graphemeExtenders : CodePoints :=
  Property.graphemeExtendMembers.union Property.emojiModifierMembers

/-- The Hangul syllables without a final consonant, which stand in front of those that have
the same beginning and one of the 27 final consonants. -/
def openSyllables : CodePoints :=
  .ofAscending ((List.range 399).map fun n => ⟨0xAC00 + 28 * n, 0xAC00 + 28 * n⟩)

/-- The classes for graphemes. -/
def forGraphemes : List SegmentClass :=
  let controls := CodePoints.unions
    [Category.membersOf [.control, .format, .lineSeparator, .paragraphSeparator],
     Property.defaultIgnorableCodePointMembers.difference Category.assigned]
  let spacing := (Category.membersOf [.spacingMark]).union (.ofText "0E33 0EB3")
  [ofText ["CR"] "000D",
   ofText ["LF"] "000A",
   ofText ["ZWJ"] "200D",
   ⟨["Control", "CN"], controls.difference (CodePoints.unions
    [.ofText "000A 000D 200C..200D", Property.prependedConcatenationMarkMembers,
     Property.graphemeExtendMembers])⟩,
   ⟨["Extend", "EX"], graphemeExtenders⟩,
   ⟨["Regional_Indicator", "RI"], Property.regionalIndicatorMembers⟩,
   ⟨["Prepend", "PP"], Property.prependedConcatenationMarkMembers.union (.ofText
    "0D4E 111C2..111C3 113D1 1193F 11941 11A3A 11A84..11A89 11D46 11F02")⟩,
   ⟨["SpacingMark", "SM"], spacing.difference (graphemeExtenders.union (.ofText
    "102B 102C 1038 1062..1064 1067..106D 1083 1087..108C 108F 109A..109C 1A61 1A63 1A64 AA7B
    AA7D 11720 11721"))⟩,
   ofText ["L"] "1100..115F A960..A97C",
   ofText ["V"] "1160..11A7 D7B0..D7C6 16D63 16D67..16D6A",
   ofText ["T"] "11A8..11FF D7CB..D7FB",
   ⟨["LV"], openSyllables⟩,
   ⟨["LVT"], (CodePoints.ofText "AC00..D7A3").difference openSyllables⟩]

/-! ### Words -/

/-- The controls that stand before a number and belong to it. -/
def numberSigns : CodePoints :=
  Property.prependedConcatenationMarkMembers.difference (.ofText "070F")

/-- The code points that extend the word before them. -/
def wordExtenders : CodePoints :=
  (CodePoints.unions [Property.graphemeExtendMembers, Category.membersOf [.spacingMark],
    Property.emojiModifierMembers]).difference (.ofText "200D")

/-- The letters of the Hebrew script. -/
def hebrewLetters : CodePoints := .ofText
    "05D0..05EA 05EF..05F2 FB1D FB1F..FB28 FB2A..FB36 FB38..FB3C FB3E FB40..FB41 FB43..FB44
    FB46..FB4F"

/-- The characters of the Katakana script that make words. -/
def katakana : CodePoints := .ofText
    "3031..3035 309B..309C 30A0..30FA 30FC..30FF 31F0..31FF 32D0..32FE 3300..3357 FF66..FF9D
    1AFF0..1AFF3 1AFF5..1AFFB 1AFFD..1AFFE 1B000 1B120..1B122 1B155 1B164..1B167"

/-- The letters of scripts that do not put blanks between words. -/
def unspacedLetters : CodePoints := .ofText
    "0E01..0E30 0E32..0E33 0E40..0E46 0E81..0E82 0E84 0E86..0E8A 0E8C..0EA3 0EA5 0EA7..0EB0
    0EB2..0EB3 0EBD 0EC0..0EC4 0EC6 0EDC..0EDF 1000..102A 103F 1050..1055 105A..105D 1061
    1065..1066 106E..1070 1075..1081 108E 1780..17B3 17D7 17DC 1950..196D 1970..1974 1980..19AB
    19B0..19C9 1A20..1A54 1AA7 A9E0..A9E4 A9E6..A9EF A9FA..A9FE AA60..AA76 AA7A AA7E..AAAF AAB1
    AAB5..AAB6 AAB9..AABD AAC0 AAC2 AADB..AADD 11700..1171A 11740..11746"

/-- The characters that are no letters but make words as these do. -/
def letterSigns : CodePoints := .ofText
    "02C2..02C5 02D2..02D7 02DE..02DF 02E5..02EB 02ED 02EF..02FF 055A..055C 055E 058A 05F3 070F
    A708..A716 A720..A721 A789..A78A AB5B"

/-- The letters that make words between blanks. -/
def wordLetters : CodePoints :=
  let hiragana := CodePoints.unions
    ((scripts.filter fun script => script.names.contains "Hira").map Script.members)
  (Property.alphabeticMembers.difference (CodePoints.unions
    [Property.ideographicMembers, katakana, hiragana, wordExtenders, hebrewLetters,
     unspacedLetters])).union letterSigns

/-- The classes for words. -/
def forWords : List SegmentClass :=
  [ofText ["CR"] "000D",
   ofText ["LF"] "000A",
   ofText ["ZWJ"] "200D",
   ofText ["Newline", "NL"] "000B..000C 0085 2028..2029",
   ⟨["Extend"], wordExtenders⟩,
   ⟨["Format", "FO"], (Category.membersOf [.format]).difference (CodePoints.unions
    [.ofText "200B..200D", Property.graphemeExtendMembers,
     Property.prependedConcatenationMarkMembers])⟩,
   ⟨["Numeric", "NU"], CodePoints.unions
    [Category.membersOf [.decimalNumber], .ofText "066B 19DA", numberSigns]⟩,
   ⟨["Regional_Indicator", "RI"], Property.regionalIndicatorMembers⟩,
   ⟨["Katakana", "KA"], katakana⟩,
   ⟨["Hebrew_Letter", "HL"], hebrewLetters⟩,
   ⟨["ALetter", "LE"], wordLetters⟩,
   ofText ["Double_Quote", "DQ"] "0022",
   ofText ["Single_Quote", "SQ"] "0027",
   ofText ["MidLetter", "ML"] "003A 00B7 0387 055F 05F4 2027 FE13 FE55 FF1A",
   ofText ["MidNum", "MN"]
    "002C 003B 037E 0589 060C..060D 066C 07F8 2044 FE50 FE54 FF0C FF1B",
   ofText ["MidNumLet", "MB"] "002E 2018..2019 2024 FE52 FF07 FF0E",
   ofText ["ExtendNumLet", "EX"] "005F 202F 203F..2040 2054 FE33..FE34 FE4D..FE4F FF3F",
   ofText ["WSegSpace"] "0020 1680 2000..2006 2008..200A 205F 3000"]

/-! ### Sentences -/

/-- The code points that extend what is before them in a sentence. -/
def sentenceExtenders : CodePoints :=
  CodePoints.unions [Property.graphemeExtendMembers, Category.membersOf [.spacingMark],
    .ofText "200D"]

/-- The lower-case letters; those of the Georgian script start sentences as well. -/
def sentenceLower : CodePoints :=
  Property.lowercaseMembers.difference
    (Property.graphemeExtendMembers.union (.ofText "10D0..10FA 10FD..10FF"))

/-- The letters that can start a sentence, apart from those of the Georgian script. -/
def sentenceUpper : CodePoints :=
  (Property.uppercaseMembers.union (Category.membersOf [.titlecaseLetter])).difference
    (.ofText "1C90..1CBA 1CBD..1CBF")

/-- The full stops, which do not always end a sentence. -/
def fullStops : CodePoints := .ofText "002E 2024 FE52 FF0E"

/-- The classes for sentences. -/
def forSentences : List SegmentClass :=
  [ofText ["CR"] "000D",
   ofText ["LF"] "000A",
   ofText ["Sep", "SE"] "0085 2028..2029",
   ofText ["Sp", "SP"] "0009 000B..000C 0020 00A0 1680 2000..200A 202F 205F 3000",
   ⟨["Extend", "EX"], sentenceExtenders⟩,
   ⟨["Format", "FO"], (Category.membersOf [.format]).difference (CodePoints.unions
    [.ofText "200C..200D", Property.graphemeExtendMembers, numberSigns])⟩,
   ⟨["Lower", "LO"], sentenceLower⟩,
   ⟨["Upper", "UP"], sentenceUpper⟩,
   ⟨["OLetter", "LE"], (Property.alphabeticMembers.union (.ofText "05F3")).difference
    (CodePoints.unions [sentenceLower, sentenceUpper, sentenceExtenders])⟩,
   ⟨["Numeric", "NU"], CodePoints.unions
    [Category.membersOf [.decimalNumber], .ofText "066B..066C 19DA", numberSigns]⟩,
   ⟨["ATerm", "AT"], fullStops⟩,
   ⟨["STerm", "ST"], Property.sentenceTerminalMembers.difference fullStops⟩,
   ofText ["SContinue", "SC"]
    "002C..002D 003A..003B 037E 055D 060C..060D 07F8 1802 1808 2013..2014 3001 FE10..FE11
    FE13..FE14 FE31..FE32 FE50..FE51 FE54..FE55 FE58 FE63 FF0C..FF0D FF1A..FF1B FF64",
   ⟨["Close", "CL"], (Category.membersOf
    [.openPunctuation, .closePunctuation, .initialPunctuation, .finalPunctuation]).union
    (.ofText
      "0022 0027 275B..2760 2E00..2E01 2E06..2E08 2E0B 1F676..1F678")⟩]

end SegmentClass

end ShiftReduce.Unicode
