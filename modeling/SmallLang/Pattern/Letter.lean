import SmallLang.Pattern.SetFormula
import SmallLang.Text.Property.Listed

/-!
# Letters, case and names

The properties that tell letters and their cases, and the characters that names and formulas are made
of. They follow from general categories, with a few additions and exceptions.
-/

set_option autoImplicit false

namespace SmallLang.SetFormula

/-! ## Case -/

/-- The characters of lower case. -/
def lowercase : SetFormula := .category ["Ll"] ∪ .codes Text.otherLowercase

/-- The characters of upper case. -/
def uppercase : SetFormula := .category ["Lu"] ∪ .codes Text.otherUppercase

/-- The characters of any case. -/
def cased : SetFormula := lowercase ∪ uppercase ∪ .category ["Lt"]

/-- The characters that some change of case changes. -/
def changesWhenCasemapped : SetFormula :=
  cased \ (.codes Text.unmappedLetters ∪
    (.codes Text.otherLowercase ∪ .codes Text.otherUppercase) \ .codes ["345 2160-217F 24B6-24E9"])

/-- The characters that have a lowercase form. -/
def changesWhenLowercased : SetFormula :=
  (uppercase ∪ .category ["Lt"]) ∩ changesWhenCasemapped

/-- The characters that have an uppercase form. -/
def changesWhenUppercased : SetFormula :=
  (lowercase ∪ .category ["Lt"]) ∩ changesWhenCasemapped

/-- The characters that have a form for the first place of a word. The Georgian letters have none,
and the capital ligatures have one. -/
def changesWhenTitlecased : SetFormula :=
  (lowercase ∩ changesWhenCasemapped) \ .codes ["10D0-10FA 10FD-10FF"] ∪ .codes ["1C4 1C7 1CA 1F1"]

/-- The characters that the comparison without case changes. Among the lowercase letters these are
the ones with several forms, the ligatures and the small Cherokee letters; the large Cherokee
letters stay. -/
def changesWhenCasefolded : SetFormula :=
  changesWhenLowercased \ .codes ["13A0-13F5"] ∪
    .codes ["B5 DF 149 17F 345 3C2 3D0-3D1 3D5-3D6 3F0-3F1 3F5 587 13F8-13FD 1C80-1C88 1E9A-1E9B",
      "1F80-1F87 1F90-1F97 1FA0-1FA7 1FB2-1FB4 1FB7 1FC2-1FC4 1FC7 1FF2-1FF4 1FF7 AB70-ABBF",
      "FB00-FB06 FB13-FB17"]

/-! ## Letters and names -/

/-- Letters and what is used like them. -/
def alphabetic : SetFormula :=
  lowercase ∪ uppercase ∪ .category ["Lt", "Lm", "Lo", "Nl"] ∪ .codes Text.otherAlphabetic

/-- The characters that a name may begin with. -/
def idStart : SetFormula :=
  (.category ["Lu", "Ll", "Lt", "Lm", "Lo", "Nl"] ∪ .codes Text.otherIdStart) \
    .codes Text.patternSyntax

/-- The characters that a name may go on with. -/
def idContinue : SetFormula :=
  idStart ∪ .category ["Mn", "Mc", "Nd", "Pc"] ∪ .codes Text.otherIdContinue

/-- Characters of names whose compatible spelling is none. -/
def incompatibleNames : SetFormula :=
  .codes ["37A 309B-309C FC5E-FC63 FDFA-FDFB FE70 FE72 FE74 FE76 FE78 FE7A FE7C FE7E"]

/-- The characters that a name, compatibly spelled, may begin with. -/
def xidStart : SetFormula := idStart \ (incompatibleNames ∪ .codes ["E33 EB3 FF9E-FF9F"])

/-- The characters that a name, compatibly spelled, may go on with. -/
def xidContinue : SetFormula := idContinue \ incompatibleNames

/-- The characters of formulas. -/
def math : SetFormula := .category ["Sm"] ∪ .codes Text.otherMath

end SmallLang.SetFormula
