import ShiftReduce.Unicode.CodePoints

/-!
# Later additions

The tables of categories and properties are those of version 16 of Unicode.  Texts are
quoted, and words are told from one another, by later versions; here are the code points in
which these differ.
-/

namespace ShiftReduce.Unicode

/-- The code points that version 17 added. -/
def version17Additions : CodePoints := .ofText
    "088F 0C5C 0CDC 1ACF..1ADD 1AE0..1AEB 20C1 2B96 A7CE..A7CF A7D2 A7D4 A7F1 FBC3..FBD2
    FD90..FD91 FDC8..FDCE 10940..10959 10EC5..10EC7 10ED0..10ED8 10EFA..10EFB 11B60..11B67
    11DB0..11DDB 11DE0..11DE9 16EA0..16EB8 16EBB..16ED3 16FF2..16FF6 187F8..187FF 18D09..18D1E
    18D80..18DF2 1CCFA..1CCFC 1CEBA..1CED0 1CEE0..1CEF0 1E6C0..1E6DE 1E6E0..1E6F5 1E6FE..1E6FF
    1F6D8 1F777..1F77A 1F8D0..1F8D8 1FA54..1FA57 1FA8A 1FA8E 1FAC8 1FACD 1FAEA 1FAEF 1FBFA
    2B73A..2B73F 2CEA2..2CEAD 323B0..33479"

/-- The marks that version 17 added to extend the grapheme before them. -/
def version17Extenders : CodePoints := .ofText
    "1ACF..1ADD 1AE0..1AEB 10EFA..10EFB 11B60 11B62..11B64 11B66 1E6E3 1E6E6 1E6EE..1E6EF 1E6F5"

/-- The alphabetic characters that version 17 added. -/
def version17Letters : CodePoints := .ofText
    "088F 0C5C 0CDC A7CE..A7CF A7D2 A7D4 A7F1 10940..10959 10EC5..10EC7 10EFA..10EFB 11B60..11B67
    11DB0..11DDB 16EA0..16EB8 16EBB..16ED3 16FF2..16FF6 187F8..187FF 18D09..18D1E 18D80..18DF2
    1E6C0..1E6DE 1E6E0..1E6F5 1E6FE..1E6FF 2B73A..2B73F 2CEA2..2CEAD 323B0..33479"

/-- The numbers that version 17 added. -/
def version17Numbers : CodePoints := .ofText
    "11DE0..11DE9 16FF4..16FF6"

/-- The code points that belong to words since version 17 or 18. -/
def laterWordCharacters : CodePoints := .ofText
    "0558 058B..058C 05C8..05C9 088F 0C5C 0CDC 1ACF..1AF0 208F 209D..209F A7CE..A7CF A7D2 A7D4
    A7DD A7E2 A7F1 107BB 10940..10959 10EC5..10EC7 10ECB..10ECF 10ED9..10EEE 10EFA..10EFB 11B0A
    11B60..11B67 11DB0..11DDB 11DE0..11DE9 1246F 12475..1247F 16EA0..16EB8 16EBB..16ED3
    16FF2..16FF6 187F8..187FF 18CD6..18CDA 18D09..18D1E 18D80..18DF2 18E00..19191 191A0..191D2
    1B123..1B128 1B168 1D127..1D128 1D250..1D252 1D25B..1D25C 1D25F 1D280..1D281 1D6A6
    1DF1F..1DF24 1DF2B..1DF81 1DF90..1DF96 1DFCD..1DFFF 1E6C0..1E6DE 1E6E0..1E6F5 1E6FE..1E6FF
    2B73A..2B73F 2B81E 2CEA2..2CEAD 323B0..33479 3D000..3FC3F"

end ShiftReduce.Unicode
