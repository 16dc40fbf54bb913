import SmallLang.Text.Property.Name

/-!
# Scripts

The script that a character belongs to. Characters of several scripts belong to a script of their
own, `Common` or `Inherited`; the ones of which the scripts are known are listed once more, under
each script that uses them.
-/

set_option autoImplicit false

namespace SmallLang.Text

/-- The scripts. -/
def scripts : List NamedRanges :=
  [⟨"Adlm", ["Adlam"], ["1E900-1E94B 1E950-1E959 1E95E-1E95F"]⟩,
    ⟨"Aghb", ["Caucasian_Albanian"], ["10530-10563 1056F"]⟩,
    ⟨"Ahom", [], ["11700-1171A 1171D-1172B 11730-11746"]⟩,
    ⟨"Arab", ["Arabic"],
      ["600-604 606-60B 60D-61A 61C-61E 620-63F 641-64A 656-66F 671-6DC 6DE-6FF 750-77F 870-88E",
       "890-891 897-8E1 8E3-8FF FB50-FBC2 FBD3-FD3D FD40-FD8F FD92-FDC7 FDCF FDF0-FDFF FE70-FE74",
       "FE76-FEFC 10E60-10E7E 10EC2-10EC4 10EFC-10EFF 1EE00-1EE03 1EE05-1EE1F 1EE21-1EE22 1EE24",
       "1EE27 1EE29-1EE32 1EE34-1EE37 1EE39 1EE3B 1EE42 1EE47 1EE49 1EE4B 1EE4D-1EE4F",
       "1EE51-1EE52 1EE54 1EE57 1EE59 1EE5B 1EE5D 1EE5F 1EE61-1EE62 1EE64 1EE67-1EE6A",
       "1EE6C-1EE72 1EE74-1EE77 1EE79-1EE7C 1EE7E 1EE80-1EE89 1EE8B-1EE9B 1EEA1-1EEA3",
       "1EEA5-1EEA9 1EEAB-1EEBB 1EEF0-1EEF1"]⟩,
    ⟨"Armi", ["Imperial_Aramaic"], ["10840-10855 10857-1085F"]⟩,
    ⟨"Armn", ["Armenian"], ["531-556 559-58A 58D-58F FB13-FB17"]⟩,
    ⟨"Avst", ["Avestan"], ["10B00-10B35 10B39-10B3F"]⟩,
    ⟨"Bali", ["Balinese"], ["1B00-1B4C 1B4E-1B7F"]⟩,
    ⟨"Bamu", ["Bamum"], ["A6A0-A6F7 16800-16A38"]⟩,
    ⟨"Bass", ["Bassa_Vah"], ["16AD0-16AED 16AF0-16AF5"]⟩,
    ⟨"Batk", ["Batak"], ["1BC0-1BF3 1BFC-1BFF"]⟩,
    ⟨"Beng", ["Bengali"],
      ["980-983 985-98C 98F-990 993-9A8 9AA-9B0 9B2 9B6-9B9 9BC-9C4 9C7-9C8 9CB-9CE 9D7 9DC-9DD",
       "9DF-9E3 9E6-9FE"]⟩,
    ⟨"Bhks", ["Bhaiksuki"], ["11C00-11C08 11C0A-11C36 11C38-11C45 11C50-11C6C"]⟩,
    ⟨"Bopo", ["Bopomofo"], ["2EA-2EB 3105-312F 31A0-31BF"]⟩,
    ⟨"Brah", ["Brahmi"], ["11000-1104D 11052-11075 1107F"]⟩,
    ⟨"Brai", ["Braille"], ["2800-28FF"]⟩,
    ⟨"Bugi", ["Buginese"], ["1A00-1A1B 1A1E-1A1F"]⟩,
    ⟨"Buhd", ["Buhid"], ["1740-1753"]⟩,
    ⟨"Cakm", ["Chakma"], ["11100-11134 11136-11147"]⟩,
    ⟨"Cans", ["Canadian_Aboriginal"], ["1400-167F 18B0-18F5 11AB0-11ABF"]⟩,
    ⟨"Cari", ["Carian"], ["102A0-102D0"]⟩,
    ⟨"Cham", [], ["AA00-AA36 AA40-AA4D AA50-AA59 AA5C-AA5F"]⟩,
    ⟨"Cher", ["Cherokee"], ["13A0-13F5 13F8-13FD AB70-ABBF"]⟩,
    ⟨"Chrs", ["Chorasmian"], ["10FB0-10FCB"]⟩,
    ⟨"Copt", ["Coptic", "Qaac"], ["3E2-3EF 2C80-2CF3 2CF9-2CFF"]⟩,
    ⟨"Cpmn", ["Cypro_Minoan"], ["12F90-12FF2"]⟩,
    ⟨"Cprt", ["Cypriot"], ["10800-10805 10808 1080A-10835 10837-10838 1083C 1083F"]⟩,
    ⟨"Cyrl", ["Cyrillic"],
      ["400-484 487-52F 1C80-1C8A 1D2B 1D78 2DE0-2DFF A640-A69F FE2E-FE2F 1E030-1E06D 1E08F"]⟩,
    ⟨"Deva", ["Devanagari"], ["900-950 955-963 966-97F A8E0-A8FF 11B00-11B09"]⟩,
    ⟨"Diak", ["Dives_Akuru"],
      ["11900-11906 11909 1190C-11913 11915-11916 11918-11935 11937-11938 1193B-11946",
       "11950-11959"]⟩,
    ⟨"Dogr", ["Dogra"], ["11800-1183B"]⟩,
    ⟨"Dsrt", ["Deseret"], ["10400-1044F"]⟩,
    ⟨"Dupl", ["Duployan"], ["1BC00-1BC6A 1BC70-1BC7C 1BC80-1BC88 1BC90-1BC99 1BC9C-1BC9F"]⟩,
    ⟨"Egyp", ["Egyptian_Hieroglyphs"], ["13000-13455 13460-143FA"]⟩,
    ⟨"Elba", ["Elbasan"], ["10500-10527"]⟩,
    ⟨"Elym", ["Elymaic"], ["10FE0-10FF6"]⟩,
    ⟨"Ethi", ["Ethiopic"],
      ["1200-1248 124A-124D 1250-1256 1258 125A-125D 1260-1288 128A-128D 1290-12B0 12B2-12B5",
       "12B8-12BE 12C0 12C2-12C5 12C8-12D6 12D8-1310 1312-1315 1318-135A 135D-137C 1380-1399",
       "2D80-2D96 2DA0-2DA6 2DA8-2DAE 2DB0-2DB6 2DB8-2DBE 2DC0-2DC6 2DC8-2DCE 2DD0-2DD6",
       "2DD8-2DDE AB01-AB06 AB09-AB0E AB11-AB16 AB20-AB26 AB28-AB2E 1E7E0-1E7E6 1E7E8-1E7EB",
       "1E7ED-1E7EE 1E7F0-1E7FE"]⟩,
    ⟨"Gara", ["Garay"], ["10D40-10D65 10D69-10D85 10D8E-10D8F"]⟩,
    ⟨"Geor", ["Georgian"],
      ["10A0-10C5 10C7 10CD 10D0-10FA 10FC-10FF 1C90-1CBA 1CBD-1CBF 2D00-2D25 2D27 2D2D"]⟩,
    ⟨"Glag", ["Glagolitic"],
      ["2C00-2C5F 1E000-1E006 1E008-1E018 1E01B-1E021 1E023-1E024 1E026-1E02A"]⟩,
    ⟨"Gong", ["Gunjala_Gondi"],
      ["11D60-11D65 11D67-11D68 11D6A-11D8E 11D90-11D91 11D93-11D98 11DA0-11DA9"]⟩,
    ⟨"Gonm", ["Masaram_Gondi"],
      ["11D00-11D06 11D08-11D09 11D0B-11D36 11D3A 11D3C-11D3D 11D3F-11D47 11D50-11D59"]⟩,
    ⟨"Goth", ["Gothic"], ["10330-1034A"]⟩,
    ⟨"Gran", ["Grantha"],
      ["11300-11303 11305-1130C 1130F-11310 11313-11328 1132A-11330 11332-11333 11335-11339",
       "1133C-11344 11347-11348 1134B-1134D 11350 11357 1135D-11363 11366-1136C 11370-11374"]⟩,
    ⟨"Grek", ["Greek"],
      ["370-373 375-377 37A-37D 37F 384 386 388-38A 38C 38E-3A1 3A3-3E1 3F0-3FF 1D26-1D2A",
       "1D5D-1D61 1D66-1D6A 1DBF 1F00-1F15 1F18-1F1D 1F20-1F45 1F48-1F4D 1F50-1F57 1F59 1F5B",
       "1F5D 1F5F-1F7D 1F80-1FB4 1FB6-1FC4 1FC6-1FD3 1FD6-1FDB 1FDD-1FEF 1FF2-1FF4 1FF6-1FFE",
       "2126 AB65 10140-1018E 101A0 1D200-1D245"]⟩,
    ⟨"Gujr", ["Gujarati"],
      ["A81-A83 A85-A8D A8F-A91 A93-AA8 AAA-AB0 AB2-AB3 AB5-AB9 ABC-AC5 AC7-AC9 ACB-ACD AD0",
       "AE0-AE3 AE6-AF1 AF9-AFF"]⟩,
    ⟨"Gukh", ["Gurung_Khema"], ["16100-16139"]⟩,
    ⟨"Guru", ["Gurmukhi"],
      ["A01-A03 A05-A0A A0F-A10 A13-A28 A2A-A30 A32-A33 A35-A36 A38-A39 A3C A3E-A42 A47-A48",
       "A4B-A4D A51 A59-A5C A5E A66-A76"]⟩,
    ⟨"Hang", ["Hangul"],
      ["1100-11FF 302E-302F 3131-318E 3200-321E 3260-327E A960-A97C AC00-D7A3 D7B0-D7C6",
       "D7CB-D7FB FFA0-FFBE FFC2-FFC7 FFCA-FFCF FFD2-FFD7 FFDA-FFDC"]⟩,
    ⟨"Hani", ["Han"],
      ["2E80-2E99 2E9B-2EF3 2F00-2FD5 3005 3007 3021-3029 3038-303B 3400-4DBF 4E00-9FFF",
       "F900-FA6D FA70-FAD9 16FE2-16FE3 16FF0-16FF1 20000-2A6DF 2A700-2B739 2B740-2B81D",
       "2B820-2CEA1 2CEB0-2EBE0 2EBF0-2EE5D 2F800-2FA1D 30000-3134A 31350-323AF"]⟩,
    ⟨"Hano", ["Hanunoo"], ["1720-1734"]⟩,
    ⟨"Hatr", ["Hatran"], ["108E0-108F2 108F4-108F5 108FB-108FF"]⟩,
    ⟨"Hebr", ["Hebrew"],
      ["591-5C7 5D0-5EA 5EF-5F4 FB1D-FB36 FB38-FB3C FB3E FB40-FB41 FB43-FB44 FB46-FB4F"]⟩,
    ⟨"Hira", ["Hiragana"], ["3041-3096 309D-309F 1B001-1B11F 1B132 1B150-1B152 1F200"]⟩,
    ⟨"Hluw", ["Anatolian_Hieroglyphs"], ["14400-14646"]⟩,
    ⟨"Hmng", ["Pahawh_Hmong"], ["16B00-16B45 16B50-16B59 16B5B-16B61 16B63-16B77 16B7D-16B8F"]⟩,
    ⟨"Hmnp", ["Nyiakeng_Puachue_Hmong"], ["1E100-1E12C 1E130-1E13D 1E140-1E149 1E14E-1E14F"]⟩,
    ⟨"Hung", ["Old_Hungarian"], ["10C80-10CB2 10CC0-10CF2 10CFA-10CFF"]⟩,
    ⟨"Ital", ["Old_Italic"], ["10300-10323 1032D-1032F"]⟩,
    ⟨"Java", ["Javanese"], ["A980-A9CD A9D0-A9D9 A9DE-A9DF"]⟩,
    ⟨"Kali", ["Kayah_Li"], ["A900-A92D A92F"]⟩,
    ⟨"Kana", ["Katakana"],
      ["30A1-30FA 30FD-30FF 31F0-31FF 32D0-32FE 3300-3357 FF66-FF6F FF71-FF9D 1AFF0-1AFF3",
       "1AFF5-1AFFB 1AFFD-1AFFE 1B000 1B120-1B122 1B155 1B164-1B167"]⟩,
    ⟨"Kawi", [], ["11F00-11F10 11F12-11F3A 11F3E-11F5A"]⟩,
    ⟨"Khar", ["Kharoshthi"],
      ["10A00-10A03 10A05-10A06 10A0C-10A13 10A15-10A17 10A19-10A35 10A38-10A3A 10A3F-10A48",
       "10A50-10A58"]⟩,
    ⟨"Khmr", ["Khmer"], ["1780-17DD 17E0-17E9 17F0-17F9 19E0-19FF"]⟩,
    ⟨"Khoj", ["Khojki"], ["11200-11211 11213-11241"]⟩,
    ⟨"Kits", ["Khitan_Small_Script"], ["16FE4 18B00-18CD5 18CFF"]⟩,
    ⟨"Knda", ["Kannada"],
      ["C80-C8C C8E-C90 C92-CA8 CAA-CB3 CB5-CB9 CBC-CC4 CC6-CC8 CCA-CCD CD5-CD6 CDD-CDE CE0-CE3",
       "CE6-CEF CF1-CF3"]⟩,
    ⟨"Krai", ["Kirat_Rai"], ["16D40-16D79"]⟩,
    ⟨"Kthi", ["Kaithi"], ["11080-110C2 110CD"]⟩,
    ⟨"Lana", ["Tai_Tham"], ["1A20-1A5E 1A60-1A7C 1A7F-1A89 1A90-1A99 1AA0-1AAD"]⟩,
    ⟨"Laoo", ["Lao"],
      ["E81-E82 E84 E86-E8A E8C-EA3 EA5 EA7-EBD EC0-EC4 EC6 EC8-ECE ED0-ED9 EDC-EDF"]⟩,
    ⟨"Latn", ["Latin"],
      ["41-5A 61-7A AA BA C0-D6 D8-F6 F8-2B8 2E0-2E4 1D00-1D25 1D2C-1D5C 1D62-1D65 1D6B-1D77",
       "1D79-1DBE 1E00-1EFF 2071 207F 2090-209C 212A-212B 2132 214E 2160-2188 2C60-2C7F",
       "A722-A787 A78B-A7CD A7D0-A7D1 A7D3 A7D5-A7DC A7F2-A7FF AB30-AB5A AB5C-AB64 AB66-AB69",
       "FB00-FB06 FF21-FF3A FF41-FF5A 10780-10785 10787-107B0 107B2-107BA 1DF00-1DF1E",
       "1DF25-1DF2A"]⟩,
    ⟨"Lepc", ["Lepcha"], ["1C00-1C37 1C3B-1C49 1C4D-1C4F"]⟩,
    ⟨"Limb", ["Limbu"], ["1900-191E 1920-192B 1930-193B 1940 1944-194F"]⟩,
    ⟨"Lina", ["Linear_A"], ["10600-10736 10740-10755 10760-10767"]⟩,
    ⟨"Linb", ["Linear_B"],
      ["10000-1000B 1000D-10026 10028-1003A 1003C-1003D 1003F-1004D 10050-1005D 10080-100FA"]⟩,
    ⟨"Lisu", [], ["A4D0-A4FF 11FB0"]⟩,
    ⟨"Lyci", ["Lycian"], ["10280-1029C"]⟩,
    ⟨"Lydi", ["Lydian"], ["10920-10939 1093F"]⟩,
    ⟨"Mahj", ["Mahajani"], ["11150-11176"]⟩,
    ⟨"Maka", ["Makasar"], ["11EE0-11EF8"]⟩,
    ⟨"Mand", ["Mandaic"], ["840-85B 85E"]⟩,
    ⟨"Mani", ["Manichaean"], ["10AC0-10AE6 10AEB-10AF6"]⟩,
    ⟨"Marc", ["Marchen"], ["11C70-11C8F 11C92-11CA7 11CA9-11CB6"]⟩,
    ⟨"Medf", ["Medefaidrin"], ["16E40-16E9A"]⟩,
    ⟨"Mend", ["Mende_Kikakui"], ["1E800-1E8C4 1E8C7-1E8D6"]⟩,
    ⟨"Merc", ["Meroitic_Cursive"], ["109A0-109B7 109BC-109CF 109D2-109FF"]⟩,
    ⟨"Mero", ["Meroitic_Hieroglyphs"], ["10980-1099F"]⟩,
    ⟨"Mlym", ["Malayalam"], ["D00-D0C D0E-D10 D12-D44 D46-D48 D4A-D4F D54-D63 D66-D7F"]⟩,
    ⟨"Modi", [], ["11600-11644 11650-11659"]⟩,
    ⟨"Mong", ["Mongolian"], ["1800-1801 1804 1806-1819 1820-1878 1880-18AA 11660-1166C"]⟩,
    ⟨"Mroo", ["Mro"], ["16A40-16A5E 16A60-16A69 16A6E-16A6F"]⟩,
    ⟨"Mtei", ["Meetei_Mayek"], ["AAE0-AAF6 ABC0-ABED ABF0-ABF9"]⟩,
    ⟨"Mult", ["Multani"], ["11280-11286 11288 1128A-1128D 1128F-1129D 1129F-112A9"]⟩,
    ⟨"Mymr", ["Myanmar"], ["1000-109F A9E0-A9FE AA60-AA7F 116D0-116E3"]⟩,
    ⟨"Nagm", ["Nag_Mundari"], ["1E4D0-1E4F9"]⟩,
    ⟨"Nand", ["Nandinagari"], ["119A0-119A7 119AA-119D7 119DA-119E4"]⟩,
    ⟨"Narb", ["Old_North_Arabian"], ["10A80-10A9F"]⟩,
    ⟨"Nbat", ["Nabataean"], ["10880-1089E 108A7-108AF"]⟩,
    ⟨"Newa", [], ["11400-1145B 1145D-11461"]⟩,
    ⟨"Nkoo", ["Nko"], ["7C0-7FA 7FD-7FF"]⟩,
    ⟨"Nshu", ["Nushu"], ["16FE1 1B170-1B2FB"]⟩,
    ⟨"Ogam", ["Ogham"], ["1680-169C"]⟩,
    ⟨"Olck", ["Ol_Chiki"], ["1C50-1C7F"]⟩,
    ⟨"Onao", ["Ol_Onal"], ["1E5D0-1E5FA 1E5FF"]⟩,
    ⟨"Orkh", ["Old_Turkic"], ["10C00-10C48"]⟩,
    ⟨"Orya", ["Oriya"],
      ["B01-B03 B05-B0C B0F-B10 B13-B28 B2A-B30 B32-B33 B35-B39 B3C-B44 B47-B48 B4B-B4D B55-B57",
       "B5C-B5D B5F-B63 B66-B77"]⟩,
    ⟨"Osge", ["Osage"], ["104B0-104D3 104D8-104FB"]⟩,
    ⟨"Osma", ["Osmanya"], ["10480-1049D 104A0-104A9"]⟩,
    ⟨"Ougr", ["Old_Uyghur"], ["10F70-10F89"]⟩,
    ⟨"Palm", ["Palmyrene"], ["10860-1087F"]⟩,
    ⟨"Pauc", ["Pau_Cin_Hau"], ["11AC0-11AF8"]⟩,
    ⟨"Perm", ["Old_Permic"], ["10350-1037A"]⟩,
    ⟨"Phag", ["Phags_Pa"], ["A840-A877"]⟩,
    ⟨"Phli", ["Inscriptional_Pahlavi"], ["10B60-10B72 10B78-10B7F"]⟩,
    ⟨"Phlp", ["Psalter_Pahlavi"], ["10B80-10B91 10B99-10B9C 10BA9-10BAF"]⟩,
    ⟨"Phnx", ["Phoenician"], ["10900-1091B 1091F"]⟩,
    ⟨"Plrd", ["Miao"], ["16F00-16F4A 16F4F-16F87 16F8F-16F9F"]⟩,
    ⟨"Prti", ["Inscriptional_Parthian"], ["10B40-10B55 10B58-10B5F"]⟩,
    ⟨"Rjng", ["Rejang"], ["A930-A953 A95F"]⟩,
    ⟨"Rohg", ["Hanifi_Rohingya"], ["10D00-10D27 10D30-10D39"]⟩,
    ⟨"Runr", ["Runic"], ["16A0-16EA 16EE-16F8"]⟩,
    ⟨"Samr", ["Samaritan"], ["800-82D 830-83E"]⟩,
    ⟨"Sarb", ["Old_South_Arabian"], ["10A60-10A7F"]⟩,
    ⟨"Saur", ["Saurashtra"], ["A880-A8C5 A8CE-A8D9"]⟩,
    ⟨"Sgnw", ["SignWriting"], ["1D800-1DA8B 1DA9B-1DA9F 1DAA1-1DAAF"]⟩,
    ⟨"Shaw", ["Shavian"], ["10450-1047F"]⟩,
    ⟨"Shrd", ["Sharada"], ["11180-111DF"]⟩,
    ⟨"Sidd", ["Siddham"], ["11580-115B5 115B8-115DD"]⟩,
    ⟨"Sind", ["Khudawadi"], ["112B0-112EA 112F0-112F9"]⟩,
    ⟨"Sinh", ["Sinhala"],
      ["D81-D83 D85-D96 D9A-DB1 DB3-DBB DBD DC0-DC6 DCA DCF-DD4 DD6 DD8-DDF DE6-DEF DF2-DF4",
       "111E1-111F4"]⟩,
    ⟨"Sogd", ["Sogdian"], ["10F30-10F59"]⟩,
    ⟨"Sogo", ["Old_Sogdian"], ["10F00-10F27"]⟩,
    ⟨"Sora", ["Sora_Sompeng"], ["110D0-110E8 110F0-110F9"]⟩,
    ⟨"Soyo", ["Soyombo"], ["11A50-11AA2"]⟩,
    ⟨"Sund", ["Sundanese"], ["1B80-1BBF 1CC0-1CC7"]⟩,
    ⟨"Sunu", ["Sunuwar"], ["11BC0-11BE1 11BF0-11BF9"]⟩,
    ⟨"Sylo", ["Syloti_Nagri"], ["A800-A82C"]⟩,
    ⟨"Syrc", ["Syriac"], ["700-70D 70F-74A 74D-74F 860-86A"]⟩,
    ⟨"Tagb", ["Tagbanwa"], ["1760-176C 176E-1770 1772-1773"]⟩,
    ⟨"Takr", ["Takri"], ["11680-116B9 116C0-116C9"]⟩,
    ⟨"Tale", ["Tai_Le"], ["1950-196D 1970-1974"]⟩,
    ⟨"Talu", ["New_Tai_Lue"], ["1980-19AB 19B0-19C9 19D0-19DA 19DE-19DF"]⟩,
    ⟨"Taml", ["Tamil"],
      ["B82-B83 B85-B8A B8E-B90 B92-B95 B99-B9A B9C B9E-B9F BA3-BA4 BA8-BAA BAE-BB9 BBE-BC2",
       "BC6-BC8 BCA-BCD BD0 BD7 BE6-BFA 11FC0-11FF1 11FFF"]⟩,
    ⟨"Tang", ["Tangut"], ["16FE0 17000-187F7 18800-18AFF 18D00-18D08"]⟩,
    ⟨"Tavt", ["Tai_Viet"], ["AA80-AAC2 AADB-AADF"]⟩,
    ⟨"Telu", ["Telugu"],
      ["C00-C0C C0E-C10 C12-C28 C2A-C39 C3C-C44 C46-C48 C4A-C4D C55-C56 C58-C5A C5D C60-C63",
       "C66-C6F C77-C7F"]⟩,
    ⟨"Tfng", ["Tifinagh"], ["2D30-2D67 2D6F-2D70 2D7F"]⟩,
    ⟨"Tglg", ["Tagalog"], ["1700-1715 171F"]⟩,
    ⟨"Thaa", ["Thaana"], ["780-7B1"]⟩,
    ⟨"Thai", [], ["E01-E3A E40-E5B"]⟩,
    ⟨"Tibt", ["Tibetan"], ["F00-F47 F49-F6C F71-F97 F99-FBC FBE-FCC FCE-FD4 FD9-FDA"]⟩,
    ⟨"Tirh", ["Tirhuta"], ["11480-114C7 114D0-114D9"]⟩,
    ⟨"Tnsa", ["Tangsa"], ["16A70-16ABE 16AC0-16AC9"]⟩,
    ⟨"Todr", ["Todhri"], ["105C0-105F3"]⟩,
    ⟨"Toto", [], ["1E290-1E2AE"]⟩,
    ⟨"Tutg", ["Tulu_Tigalari"],
      ["11380-11389 1138B 1138E 11390-113B5 113B7-113C0 113C2 113C5 113C7-113CA 113CC-113D5",
       "113D7-113D8 113E1-113E2"]⟩,
    ⟨"Ugar", ["Ugaritic"], ["10380-1039D 1039F"]⟩,
    ⟨"Vaii", ["Vai"], ["A500-A62B"]⟩,
    ⟨"Vith", ["Vithkuqi"],
      ["10570-1057A 1057C-1058A 1058C-10592 10594-10595 10597-105A1 105A3-105B1 105B3-105B9",
       "105BB-105BC"]⟩,
    ⟨"Wara", ["Warang_Citi"], ["118A0-118F2 118FF"]⟩,
    ⟨"Wcho", ["Wancho"], ["1E2C0-1E2F9 1E2FF"]⟩,
    ⟨"Xpeo", ["Old_Persian"], ["103A0-103C3 103C8-103D5"]⟩,
    ⟨"Xsux", ["Cuneiform"], ["12000-12399 12400-1246E 12470-12474 12480-12543"]⟩,
    ⟨"Yezi", ["Yezidi"], ["10E80-10EA9 10EAB-10EAD 10EB0-10EB1"]⟩,
    ⟨"Yiii", ["Yi"], ["A000-A48C A490-A4C6"]⟩,
    ⟨"Zanb", ["Zanabazar_Square"], ["11A00-11A47"]⟩,
    ⟨"Zinh", ["Inherited", "Qaai"],
      ["300-36F 485-486 64B-655 670 951-954 1AB0-1ACE 1CD0-1CD2 1CD4-1CE0 1CE2-1CE8 1CED 1CF4",
       "1CF8-1CF9 1DC0-1DFF 200C-200D 20D0-20F0 302A-302D 3099-309A FE00-FE0F FE20-FE2D 101FD",
       "102E0 1133B 1CF00-1CF2D 1CF30-1CF46 1D167-1D169 1D17B-1D182 1D185-1D18B 1D1AA-1D1AD",
       "E0100-E01EF"]⟩,
    ⟨"Zyyy", ["Common"],
      ["0-40 5B-60 7B-A9 AB-B9 BB-BF D7 F7 2B9-2DF 2E5-2E9 2EC-2FF 374 37E 385 387 605 60C 61B",
       "61F 640 6DD 8E2 964-965 E3F FD5-FD8 10FB 16EB-16ED 1735-1736 1802-1803 1805 1CD3 1CE1",
       "1CE9-1CEC 1CEE-1CF3 1CF5-1CF7 1CFA 2000-200B 200E-2064 2066-2070 2074-207E 2080-208E",
       "20A0-20C0 2100-2125 2127-2129 212C-2131 2133-214D 214F-215F 2189-218B 2190-2429",
       "2440-244A 2460-27FF 2900-2B73 2B76-2B95 2B97-2BFF 2E00-2E5D 2FF0-3004 3006 3008-3020",
       "3030-3037 303C-303F 309B-309C 30A0 30FB-30FC 3190-319F 31C0-31E5 31EF 3220-325F",
       "327F-32CF 32FF 3358-33FF 4DC0-4DFF A700-A721 A788-A78A A830-A839 A92E A9CF AB5B",
       "AB6A-AB6B FD3E-FD3F FE10-FE19 FE30-FE52 FE54-FE66 FE68-FE6B FEFF FF01-FF20 FF3B-FF40",
       "FF5B-FF65 FF70 FF9E-FF9F FFE0-FFE6 FFE8-FFEE FFF9-FFFD 10100-10102 10107-10133",
       "10137-1013F 10190-1019C 101D0-101FC 102E1-102FB 1BCA0-1BCA3 1CC00-1CCF9 1CD00-1CEB3",
       "1CF50-1CFC3 1D000-1D0F5 1D100-1D126 1D129-1D166 1D16A-1D17A 1D183-1D184 1D18C-1D1A9",
       "1D1AE-1D1EA 1D2C0-1D2D3 1D2E0-1D2F3 1D300-1D356 1D360-1D378 1D400-1D454 1D456-1D49C",
       "1D49E-1D49F 1D4A2 1D4A5-1D4A6 1D4A9-1D4AC 1D4AE-1D4B9 1D4BB 1D4BD-1D4C3 1D4C5-1D505",
       "1D507-1D50A 1D50D-1D514 1D516-1D51C 1D51E-1D539 1D53B-1D53E 1D540-1D544 1D546",
       "1D54A-1D550 1D552-1D6A5 1D6A8-1D7CB 1D7CE-1D7FF 1EC71-1ECB4 1ED01-1ED3D 1F000-1F02B",
       "1F030-1F093 1F0A0-1F0AE 1F0B1-1F0BF 1F0C1-1F0CF 1F0D1-1F0F5 1F100-1F1AD 1F1E6-1F1FF",
       "1F201-1F202 1F210-1F23B 1F240-1F248 1F250-1F251 1F260-1F265 1F300-1F6D7 1F6DC-1F6EC",
       "1F6F0-1F6FC 1F700-1F776 1F77B-1F7D9 1F7E0-1F7EB 1F7F0 1F800-1F80B 1F810-1F847",
       "1F850-1F859 1F860-1F887 1F890-1F8AD 1F8B0-1F8BB 1F8C0-1F8C1 1F900-1FA53 1FA60-1FA6D",
       "1FA70-1FA7C 1FA80-1FA89 1FA8F-1FAC6 1FACE-1FADC 1FADF-1FAE9 1FAF0-1FAF8 1FB00-1FB92",
       "1FB94-1FBF9 E0001 E0020-E007F"]⟩]

/-- The characters that a script shares with others, by the short name of the script. -/
def scriptExtensions : List NamedRanges :=
  [⟨"Adlm", [], ["61F 640 204F 2E41"]⟩,
    ⟨"Aghb", [], ["304 331 35E"]⟩,
    ⟨"Arab", [], ["60C 61B 61F 640 64B-655 670 204F 2E41 FD3E-FD3F 102E0-102FB"]⟩,
    ⟨"Armn", [], ["308"]⟩,
    ⟨"Avst", [], ["B7 2E30-2E31"]⟩,
    ⟨"Beng", [],
      ["2BC 951-952 964-965 1CD0 1CD2 1CD5-1CD6 1CD8 1CE1 1CEA 1CED 1CF2 1CF5-1CF7 A8F1"]⟩,
    ⟨"Bopo", [],
      ["2C7 2C9-2CB 2D9 3001-3003 3008-3011 3013-301F 302A-302D 3030 3037 30FB FE45-FE46",
       "FF61-FF65"]⟩,
    ⟨"Bugi", [], ["A9CF"]⟩,
    ⟨"Buhd", [], ["1735-1736"]⟩,
    ⟨"Cakm", [], ["9E6-9EF 1040-1049"]⟩,
    ⟨"Cari", [], ["B7 205A 205D 2E31"]⟩,
    ⟨"Cher", [], ["300-302 304 30B-30C 323-324 330-331"]⟩,
    ⟨"Copt", [], ["B7 300 304-305 307 374-375 2E17 102E0-102FB"]⟩,
    ⟨"Cpmn", [], ["10100-10101"]⟩,
    ⟨"Cprt", [], ["10100-10102 10107-10133 10137-1013F"]⟩,
    ⟨"Cyrl", [], ["2BC 300-302 304 306 308 30B 311 485-486 1DF8 2E43"]⟩,
    ⟨"Deva", [], ["2BC 951-952 964-965 1CD0-1CF6 1CF8-1CF9 20F0 A830-A839"]⟩,
    ⟨"Dogr", [], ["964-96F A830-A839"]⟩,
    ⟨"Dupl", [], ["B7 307-308 30A 323-324 2E3C 1BCA0-1BCA3"]⟩,
    ⟨"Elba", [], ["B7 305"]⟩,
    ⟨"Ethi", [], ["30E"]⟩,
    ⟨"Gara", [], ["60C 61B 61F"]⟩,
    ⟨"Geor", [], ["B7 589 10FB 205A 2E31"]⟩,
    ⟨"Glag", [], ["B7 303 305 484 487 589 10FB 205A 2E43 A66F"]⟩,
    ⟨"Gong", [], ["B7 964-965"]⟩,
    ⟨"Gonm", [], ["964-965"]⟩,
    ⟨"Goth", [], ["B7 304-305 308 331"]⟩,
    ⟨"Gran", [],
      ["951-952 964-965 BE6-BF3 1CD0 1CD2-1CD3 1CF2-1CF4 1CF8-1CF9 20F0 1133B 11FD0-11FD1 11FD3"]⟩,
    ⟨"Grek", [], ["B7 300-301 304 306 308 313 342 345 374 1DC0-1DC1 205D"]⟩,
    ⟨"Gujr", [], ["951-952 964-965 A830-A839"]⟩,
    ⟨"Gukh", [], ["965"]⟩,
    ⟨"Guru", [], ["951-952 964-965 A830-A839"]⟩,
    ⟨"Hang", [], ["3001-3003 3008-3011 3013-301F 3030 3037 30FB FE45-FE46 FF61-FF65"]⟩,
    ⟨"Hani", [],
      ["B7 2FF0-2FFF 3001-3003 3006 3008-3011 3013-301F 302A-302D 3030 3037 303C-303F 30FB",
       "3190-319F 31C0-31E5 31EF 3220-3247 3280-32B0 32C0-32CB 32FF 3358-3370 337B-337F",
       "33E0-33FE A700-A707 FE45-FE46 FF61-FF65 1D360-1D371 1F250-1F251"]⟩,
    ⟨"Hano", [], ["1735-1736"]⟩,
    ⟨"Hebr", [], ["307-308"]⟩,
    ⟨"Hira", [],
      ["3001-3003 3008-3011 3013-301F 3030-3035 3037 303C-303D 3099-309C 30A0 30FB-30FC",
       "FE45-FE46 FF61-FF65 FF70 FF9E-FF9F"]⟩,
    ⟨"Hung", [], ["205A 205D 2E31 2E41"]⟩,
    ⟨"Java", [], ["A9CF"]⟩,
    ⟨"Kali", [], ["A92E"]⟩,
    ⟨"Kana", [],
      ["305 323 3001-3003 3008-3011 3013-301F 3030-3035 3037 303C-303D 3099-309C 30A0 30FB-30FC",
       "FE45-FE46 FF61-FF65 FF70 FF9E-FF9F"]⟩,
    ⟨"Khoj", [], ["AE6-AEF A830-A839"]⟩,
    ⟨"Knda", [], ["951-952 964-965 1CD0 1CD2-1CD3 1CDA 1CF2 1CF4 A830-A835"]⟩,
    ⟨"Kthi", [], ["966-96F 2E31 A830-A839"]⟩,
    ⟨"Latn", [],
      ["B7 2BC 2C7 2C9-2CB 2CD 2D7 2D9 300-30E 310-311 313 323-325 32D-32E 330-331 358 35E",
       "363-36F 485-486 951-952 10FB 1DF8 202F 20F0 2E17 A700-A707 A92E"]⟩,
    ⟨"Limb", [], ["965"]⟩,
    ⟨"Lina", [], ["10107-10133"]⟩,
    ⟨"Linb", [], ["10100-10102 10107-10133 10137-1013F"]⟩,
    ⟨"Lisu", [], ["2BC 2CD 300A-300B"]⟩,
    ⟨"Lyci", [], ["205A"]⟩,
    ⟨"Lydi", [], ["B7 2E31"]⟩,
    ⟨"Mahj", [], ["B7 964-96F A830-A839"]⟩,
    ⟨"Mand", [], ["640"]⟩,
    ⟨"Mani", [], ["640"]⟩,
    ⟨"Mero", [], ["205D"]⟩,
    ⟨"Mlym", [], ["951-952 964-965 1CDA 1CF2 A830-A832"]⟩,
    ⟨"Modi", [], ["A830-A839"]⟩,
    ⟨"Mong", [], ["1802-1803 1805 202F 3001-3002 3008-300B"]⟩,
    ⟨"Mult", [], ["A66-A6F"]⟩,
    ⟨"Mymr", [], ["A92E"]⟩,
    ⟨"Nand", [], ["951 964-965 CE6-CEF 1CE9 1CF2 1CFA A830-A835"]⟩,
    ⟨"Newa", [], ["951-952 1CD5 1CD7-1CD8 1CE2 1CE9 1CEB 1CED"]⟩,
    ⟨"Nkoo", [], ["60C 61B 61F FD3E-FD3F"]⟩,
    ⟨"Onao", [], ["964-965"]⟩,
    ⟨"Orkh", [], ["205A 2E30"]⟩,
    ⟨"Orya", [], ["951-952 964-965 1CDA 1CF2"]⟩,
    ⟨"Osge", [], ["301 304 30B 358"]⟩,
    ⟨"Ougr", [], ["640 10AF2"]⟩,
    ⟨"Perm", [], ["B7 300 306-308 313 483"]⟩,
    ⟨"Phag", [], ["1802-1803 1805 202F 3002"]⟩,
    ⟨"Phlp", [], ["640"]⟩,
    ⟨"Rohg", [], ["60C 61B 61F 640 6D4"]⟩,
    ⟨"Runr", [], ["16EB-16ED"]⟩,
    ⟨"Samr", [], ["2E31"]⟩,
    ⟨"Shaw", [], ["B7"]⟩,
    ⟨"Shrd", [], ["951 1CD7 1CD9 1CDC-1CDD 1CE0 1CEA 1CED A830-A835 A838"]⟩,
    ⟨"Sind", [], ["964-965 A830-A839"]⟩,
    ⟨"Sinh", [], ["964-965 1CF2"]⟩,
    ⟨"Sogd", [], ["640"]⟩,
    ⟨"Sunu", [], ["300-301 303 30D 310 32D 331"]⟩,
    ⟨"Sylo", [], ["964-965 9E6-9EF"]⟩,
    ⟨"Syrc", [],
      ["303-304 307-308 30A 323-325 32D-32E 330-331 60C 61B-61C 61F 640 64B-655 670 1DF8 1DFA"]⟩,
    ⟨"Tagb", [], ["1735-1736"]⟩,
    ⟨"Takr", [], ["964-965 A830-A839"]⟩,
    ⟨"Tale", [], ["300-301 307-308 30C 1040-1049"]⟩,
    ⟨"Taml", [], ["951-952 964-965 1CDA A8F3 11301 11303 1133B-1133C"]⟩,
    ⟨"Tang", [], ["2FF0-2FFF 31EF"]⟩,
    ⟨"Telu", [], ["951-952 964-965 1CD5-1CD6 1CD8 1CDA 1CF2"]⟩,
    ⟨"Tfng", [], ["302 304 306-309 323"]⟩,
    ⟨"Tglg", [], ["1735-1736"]⟩,
    ⟨"Thaa", [], ["60C 61B-61C 61F 660-669 FDF2 FDFD"]⟩,
    ⟨"Thai", [], ["2BC 2D7 303 331"]⟩,
    ⟨"Tibt", [], ["3008-300B"]⟩,
    ⟨"Tirh", [], ["951-952 964-965 1CD5 1CE2 1CF2 A830-A839"]⟩,
    ⟨"Todr", [], ["301 304 307 311 313 35E"]⟩,
    ⟨"Toto", [], ["2BC"]⟩,
    ⟨"Tutg", [], ["CE6-CEF 1CF2 1CF4 A830-A835 A8F1"]⟩,
    ⟨"Yezi", [], ["60C 61B 61F 660-669"]⟩,
    ⟨"Yiii", [], ["3001-3002 3008-3011 3014-301B 30FB FF61-FF65"]⟩]

end SmallLang.Text
