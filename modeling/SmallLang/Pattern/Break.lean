import SmallLang.Pattern.Letter
import SmallLang.Text.Blank

/-!
# Breaks in text

What a character does to the breaks between the units of a text: between the characters as a reader
sees them, between words and between sentences. Each of the three properties has a table of values.
-/

set_option autoImplicit false

namespace SmallLang.Break

/-! ## Classes that several tables share -/

/-- The blank characters. -/
def blank : SetFormula := .ranges Text.blankRanges

/-- The characters that belong to the one before them. -/
def graphemeExtend : SetFormula := .category ["Mn", "Me"] ∪ .codes Text.otherGraphemeExtend

/-- The carriage return. -/
def carriageReturn : SetFormula := .codes ["D"]

/-- The line feed. -/
def lineFeed : SetFormula := .codes ["A"]

/-- The character that joins two into one. -/
def joiner : SetFormula := .codes ["200D"]

/-- The number signs that span the digits after them, but for the Syriac one that spans letters. -/
def numberSigns : SetFormula := .codes Text.prependedMarks \ .codes ["70F"]

/-- The digits with the Arabic signs that stand between and around them. -/
def numeric : SetFormula := .category ["Nd"] ∪ numberSigns ∪ .codes ["66B-66C"]

/-- The characters that stand between two letters of a word. -/
def midLetter : SetFormula := .codes ["3A B7 387 55F 5F4 2027 FE13 FE55 FF1A"]

/-- The characters that stand between two letters or two digits. -/
def midNumberOrLetter : SetFormula := .codes ["2E 2018-2019 2024 FE52 FF07 FF0E"]

/-! ## Between characters -/

/-- The characters that extend the one before them without a width of their own. -/
def extending : SetFormula := graphemeExtend ∪ .codes Text.emojiModifiers

/-- The values for breaks between characters. -/
def betweenCharacters : List NamedFormula :=
  [⟨"CR", [], carriageReturn⟩,
    ⟨"LF", [], lineFeed⟩,
    ⟨"ZWJ", [], joiner⟩,
    ⟨"Control", ["CN"],
      (.category ["Zl", "Zp", "Cc", "Cf"] ∪ .category ["Cn"] ∩ .codes Text.defaultIgnorable) \
        (.codes ["A D 200C-200D"] ∪ .codes Text.prependedMarks ∪ extending)⟩,
    ⟨"Extend", ["EX"], extending⟩,
    ⟨"Prepend", ["PP"],
      .codes Text.prependedMarks ∪
        .codes ["D4E 111C2-111C3 113D1 1193F 11941 11A3A 11A84-11A89 11D46 11F02"]⟩,
    ⟨"SpacingMark", ["SM"],
      (.category ["Mc"] ∪ .codes ["E33 EB3"]) \
        (extending ∪ .codes ["102B-102C 1038 1062-1064 1067-106D 1083 1087-108C 108F 109A-109C",
          "1A61 1A63-1A64 AA7B AA7D 11720-11721"])⟩,
    ⟨"Regional_Indicator", ["RI"], .codes Text.regionalIndicators⟩,
    ⟨"L", [], .codes ["1100-115F A960-A97C"]⟩,
    ⟨"V", [], .codes ["1160-11A7 D7B0-D7C6 16D63 16D67-16D6A"]⟩,
    ⟨"T", [], .codes ["11A8-11FF D7CB-D7FB"]⟩,
    ⟨"LV", [], .every 28 0xAC00 0xD7A3⟩,
    ⟨"LVT", [], .codes ["AC00-D7A3"] \ .every 28 0xAC00 0xD7A3⟩]

/-! ## Between words -/

/-- The characters that continue the word before them. -/
def extendingWord : SetFormula := (extending ∪ .category ["Mc"]) \ joiner

/-- The signs and letters of Katakana words. -/
def katakana : SetFormula := .script "Kana" ∪ .codes ["3031-3035 309B-309C 30A0 30FC FF70"]

/-- The letters of scripts that do not separate words. -/
def unseparated : SetFormula :=
  .codes ["E01-E3A E40-E4E E81-E82 E84 E86-E8A E8C-EA3 EA5 EA7-EBD EC0-EC4 EC6 EC8-ECE EDC-EDF",
    "1000-103F 1050-108F 109A-109F 1780-17D3 17D7 17DC-17DD 1950-196D 1970-1974 1980-19AB",
    "19B0-19C9 19DA 19DE-19DF 1A20-1A5E 1A60-1A7C 1AA0-1AAD A9E0-A9EF A9FA-A9FE AA60-AAC2",
    "AADB-AADF 11700-1171A 1171D-1172B 1173A-1173B 1173F-11746"]

/-- The Hebrew letters. -/
def hebrewLetter : SetFormula := .script "Hebr" ∩ .category ["Lo"]

/-- The format characters that words do not count. -/
def wordFormat : SetFormula :=
  .category ["Cf"] \ (.codes ["200B-200D"] ∪ numberSigns ∪ .codes ["70F"] ∪ extendingWord)

/-- The values for breaks between words. -/
def betweenWords : List NamedFormula :=
  [⟨"CR", [], carriageReturn⟩,
    ⟨"LF", [], lineFeed⟩,
    ⟨"Newline", ["NL"], .codes ["B-C 85 2028-2029"]⟩,
    ⟨"ZWJ", [], joiner⟩,
    ⟨"Extend", [], extendingWord⟩,
    ⟨"Regional_Indicator", ["RI"], .codes Text.regionalIndicators⟩,
    ⟨"Format", ["FO"], wordFormat⟩,
    ⟨"Katakana", ["KA"], katakana⟩,
    ⟨"Hebrew_Letter", ["HL"], hebrewLetter⟩,
    ⟨"ALetter", ["LE"],
      (.alphabetic ∪ .codes ["2C2-2C5 2D2-2D7 2DE-2DF 2E5-2EB 2ED 2EF-2FF 55A-55C 55E 58A 5F3 70F",
        "A708-A716 A720-A721 A789-A78A AB5B"]) \
        (.codes Text.ideographs ∪ katakana ∪ unseparated ∪ .script "Hira" ∪ extendingWord ∪
          hebrewLetter)⟩,
    ⟨"Single_Quote", ["SQ"], .codes ["27"]⟩,
    ⟨"Double_Quote", ["DQ"], .codes ["22"]⟩,
    ⟨"MidNumLet", ["MB"], midNumberOrLetter⟩,
    ⟨"MidLetter", ["ML"], midLetter⟩,
    ⟨"MidNum", ["MN"],
      .codes ["2C 3B 37E 589 60C-60D 66C 7F8 2044 FE10 FE14 FE50 FE54 FF0C FF1B"]⟩,
    ⟨"Numeric", ["NU"], numeric \ .codes ["66C"]⟩,
    ⟨"ExtendNumLet", ["EX"], .category ["Pc"] ∪ .codes ["202F"]⟩,
    ⟨"WSegSpace", [], .category ["Zs"] \ .codes ["A0 2007 202F"]⟩]

/-! ## Between sentences -/

/-- The characters that end a line. -/
def separator : SetFormula := .codes ["85 2028-2029"]

/-- The characters that continue the sentence before them. -/
def extendingSentence : SetFormula := graphemeExtend ∪ .category ["Mc"] ∪ joiner

/-- The lowercase letters, without the Georgian ones, which also begin sentences. -/
def lower : SetFormula :=
  .lowercase \ (graphemeExtend ∪ .codes ["10D0-10FA 10FD-10FF"])

/-- The capital letters that begin sentences. -/
def upper : SetFormula :=
  (.uppercase ∪ .category ["Lt"]) \ .codes ["1C90-1CBA 1CBD-1CBF"]

/-- The full stops, which do not always end a sentence. -/
def fullStops : SetFormula := .codes ["2E 2024 FE52 FF0E"]

/-- The values for breaks between sentences. -/
def betweenSentences : List NamedFormula :=
  [⟨"CR", [], carriageReturn⟩,
    ⟨"LF", [], lineFeed⟩,
    ⟨"Sep", ["SE"], separator⟩,
    ⟨"Extend", ["EX"], extendingSentence⟩,
    ⟨"Format", ["FO"],
      .category ["Cf"] \ (.codes ["200C-200D"] ∪ numberSigns ∪ extendingSentence)⟩,
    ⟨"Sp", [], blank \ (separator ∪ .codes ["A D"])⟩,
    ⟨"Lower", ["LO"], lower⟩,
    ⟨"Upper", ["UP"], upper⟩,
    ⟨"OLetter", ["LE"], (.alphabetic ∪ .codes ["5F3"]) \ (lower ∪ upper ∪ extendingSentence)⟩,
    ⟨"Numeric", ["NU"], numeric⟩,
    ⟨"ATerm", ["AT"], fullStops⟩,
    ⟨"STerm", ["ST"], .codes Text.sentenceTerminals \ fullStops⟩,
    ⟨"SContinue", ["SC"],
      .codes ["2C-2D 3A-3B 37E 55D 60C-60D 7F8 1802 1808 2013-2014 3001 FE10-FE11 FE13-FE14",
        "FE31-FE32 FE50-FE51 FE54-FE55 FE58 FE63 FF0C-FF0D FF1A-FF1B FF64"]⟩,
    ⟨"Close", ["CL"],
      (.category ["Ps", "Pe", "Pi", "Pf"] ∪
        .codes ["22 27 275B-2760 2E00-2E01 2E06-2E08 2E0B 1F676-1F678"]) \
        (.codes ["5F3"] ∪ .codes Text.sentenceTerminals ∪ fullStops)⟩]

end SmallLang.Break
