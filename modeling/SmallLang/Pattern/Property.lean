import SmallLang.Pattern.Break
import SmallLang.Text.Property.Age

/-!
# Properties of characters

A class such as `\p{Greek}` or `\p{Script=Greek}` names a property. A name alone is that of a
yes-or-no property, a general category or a script, looked up in this order. With a value it is that
of a property with several values.
-/

set_option autoImplicit false

namespace SmallLang

namespace SetFormula

/-- The characters between which case looks as if they were not there. -/
def caseIgnorable : SetFormula :=
  .category ["Mn", "Me", "Cf", "Lm", "Sk"] ∪ Break.midLetter ∪ Break.midNumberOrLetter ∪
    .codes ["27"]

/-- The characters that stand for themselves: all but controls, unassigned codes, line ends and
those that extend another one. -/
def graphemeBase : SetFormula :=
  .codes ["0-10FFFF"] \
    (.category ["Cc", "Cf", "Co", "Cn", "Zl", "Zp"] ∪ .codes ["D800-DFFF"] ∪ Break.graphemeExtend)

end SetFormula

/-- The yes-or-no properties that follow from others. -/
def derivedProperties : List NamedFormula :=
  [⟨"Alphabetic", ["Alpha"], .alphabetic⟩,
    ⟨"Case_Ignorable", ["CI"], .caseIgnorable⟩,
    ⟨"Cased", [], .cased⟩,
    ⟨"Changes_When_Casefolded", ["CWCF"], .changesWhenCasefolded⟩,
    ⟨"Changes_When_Casemapped", ["CWCM"], .changesWhenCasemapped⟩,
    ⟨"Changes_When_Lowercased", ["CWL"], .changesWhenLowercased⟩,
    ⟨"Changes_When_Titlecased", ["CWT"], .changesWhenTitlecased⟩,
    ⟨"Changes_When_Uppercased", ["CWU"], .changesWhenUppercased⟩,
    ⟨"Grapheme_Base", ["Gr_Base"], .graphemeBase⟩,
    ⟨"Grapheme_Extend", ["Gr_Ext"], Break.graphemeExtend⟩,
    ⟨"ID_Continue", ["IDC"], .idContinue⟩,
    ⟨"ID_Start", ["IDS"], .idStart⟩,
    ⟨"Lowercase", ["Lower"], .lowercase⟩,
    ⟨"Math", [], .math⟩,
    ⟨"Uppercase", ["Upper"], .uppercase⟩,
    ⟨"White_Space", ["WSpace", "space"], Break.blank⟩,
    ⟨"XID_Continue", ["XIDC"], .xidContinue⟩,
    ⟨"XID_Start", ["XIDS"], .xidStart⟩]

/-- The yes-or-no properties. -/
def yesOrNoProperties : List NamedFormula :=
  derivedProperties ++ Text.listedProperties.map .ofRanges

/-- The groups of general categories. Surrogates, which are no characters, close the gap that they
leave in the last group. -/
def groupedCategories : List NamedFormula :=
  Text.categoryGroups.map fun (name, otherNames, members) =>
    let gap := if members.contains "Cn" then ["D800-DFFF"] else []
    ⟨name, otherNames, .category members ∪ .codes gap⟩

/-- The general categories, single and in groups, with the sets of all characters, of all characters
that have a meaning, and of those of ASCII. -/
def generalCategories : List NamedFormula :=
  Text.categories.map .ofRanges ++ groupedCategories ++
    [⟨"Any", [], .codes ["0-10FFFF"]⟩,
      ⟨"Assigned", [], .codes ["0-10FFFF"] \ .category ["Cn"]⟩,
      ⟨"ASCII", [], .codes ["0-7F"]⟩]

/-- The scripts. -/
def allScripts : List NamedFormula := Text.scripts.map .ofRanges

/-- All characters that several scripts share. -/
def sharedCodes : SetFormula :=
  .ranges (Text.scriptExtensions.flatMap (·.ranges))

/-- The scripts with the characters that they share with others. Those without a script of their own
are the ones of which no scripts are known. -/
def extendedScripts : List NamedFormula :=
  Text.scripts.map fun set =>
    let own := SetFormula.codes set.lines
    let formula :=
      if set.name = "Zyyy" ∨ set.name = "Zinh" then own \ sharedCodes
      else own ∪ .ranges (SetFormula.rangesNamed Text.scriptExtensions [set.name])
    ⟨set.name, set.otherNames, formula⟩

/-- The characters that are there from the version of that name on: those which it or an earlier one
added. -/
def ageNamed? (key : String) : Option SetFormula :=
  (Text.ages.findIdx? fun set => Text.isNameOf key (set.name :: set.otherNames)).map fun i =>
    .ranges ((Text.ages.take (i + 1)).flatMap (·.ranges))

/-- The properties with several values: their names, and how a value is looked up. -/
def valuedProperties : List (List String × (String → Option SetFormula)) :=
  [(["General_Category", "gc"], (formulaNamed? · generalCategories)),
    (["Script", "sc"], (formulaNamed? · allScripts)),
    (["Script_Extensions", "scx"], (formulaNamed? · extendedScripts)),
    (["Age"], ageNamed?),
    (["Grapheme_Cluster_Break", "GCB"], (formulaNamed? · Break.betweenCharacters)),
    (["Word_Break", "WB"], (formulaNamed? · Break.betweenWords)),
    (["Sentence_Break", "SB"], (formulaNamed? · Break.betweenSentences))]

namespace CharSet

/-- The characters with the property, of the category or of the script of that name. -/
def property? (name : String) : Option CharSet :=
  let key := Text.looseName name
  ([yesOrNoProperties, generalCategories, allScripts].findSome? (formulaNamed? key)).map (·.eval)

/-- The characters for which the property of that name has that value. -/
def propertyWithValue? (name value : String) : Option CharSet := do
  let key := Text.looseName name
  let (_, formula?) ← valuedProperties.find? fun (names, _) => Text.isNameOf key names
  let formula ← formula? (Text.looseName value)
  some formula.eval

end CharSet

end SmallLang
