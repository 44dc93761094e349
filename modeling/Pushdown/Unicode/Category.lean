/-!
# General categories

Every code point has one general category. The table lists the code points at which
the category changes, in hexadecimal and ascending, each followed by the category of
the code points from there on; where two categories alternate code point by code point,
both are given, the one of the first code point first.

## Operations

* `Category.of`: the category of a character;
* `Category.ofAbbreviation?`: the category of a two-letter abbreviation.
-/

namespace Pushdown
namespace Unicode

/-- General categories. -/
inductive Category where
  | uppercaseLetter
  | lowercaseLetter
  | titlecaseLetter
  | modifierLetter
  | otherLetter
  | nonspacingMark
  | spacingMark
  | enclosingMark
  | decimalNumber
  | letterNumber
  | otherNumber
  | connectorPunctuation
  | dashPunctuation
  | openPunctuation
  | closePunctuation
  | initialPunctuation
  | finalPunctuation
  | otherPunctuation
  | mathSymbol
  | currencySymbol
  | modifierSymbol
  | otherSymbol
  | spaceSeparator
  | lineSeparator
  | paragraphSeparator
  | control
  | format
  | surrogate
  | privateUse
  | unassigned
deriving DecidableEq

namespace Category

/-- Two-letter abbreviation of a category. -/
def abbreviation : Category → String
  | uppercaseLetter => "Lu"
  | lowercaseLetter => "Ll"
  | titlecaseLetter => "Lt"
  | modifierLetter => "Lm"
  | otherLetter => "Lo"
  | nonspacingMark => "Mn"
  | spacingMark => "Mc"
  | enclosingMark => "Me"
  | decimalNumber => "Nd"
  | letterNumber => "Nl"
  | otherNumber => "No"
  | connectorPunctuation => "Pc"
  | dashPunctuation => "Pd"
  | openPunctuation => "Ps"
  | closePunctuation => "Pe"
  | initialPunctuation => "Pi"
  | finalPunctuation => "Pf"
  | otherPunctuation => "Po"
  | mathSymbol => "Sm"
  | currencySymbol => "Sc"
  | modifierSymbol => "Sk"
  | otherSymbol => "So"
  | spaceSeparator => "Zs"
  | lineSeparator => "Zl"
  | paragraphSeparator => "Zp"
  | control => "Cc"
  | format => "Cf"
  | surrogate => "Cs"
  | privateUse => "Co"
  | unassigned => "Cn"

/-- Every category. -/
def all : List Category :=
  [uppercaseLetter, lowercaseLetter, titlecaseLetter, modifierLetter, otherLetter,
    nonspacingMark, spacingMark, enclosingMark, decimalNumber, letterNumber, otherNumber,
    connectorPunctuation, dashPunctuation, openPunctuation, closePunctuation,
    initialPunctuation, finalPunctuation, otherPunctuation, mathSymbol, currencySymbol,
    modifierSymbol, otherSymbol, spaceSeparator, lineSeparator, paragraphSeparator, control,
    format, surrogate, privateUse, unassigned]

/-- The category of an abbreviation. -/
def ofAbbreviation? (text : String) : Option Category :=
  all.find? fun category => category.abbreviation = text

/-- Code points at which the category changes. -/
def changes : String := "
0 Cc; 20 Zs; 21 Po; 24 Sc; 25 Po; 28 Ps; 29 Pe; 2A Po Sm; 2D Pd; 2E Po; 30 Nd; 3A Po; 3C Sm;
3F Po; 41 Lu; 5B Ps; 5C Po; 5D Pe; 5E Sk Pc; 61 Ll; 7B Ps; 7C Sm Pe; 7F Cc; A0 Zs; A1 Po; A2 Sc;
A6 So; A7 Po; A8 Sk; A9 So; AA Lo; AB Pi; AC Sm; AD Cf; AE So Sk; B1 Sm; B2 No; B4 Sk; B5 Ll;
B6 Po; B8 Sk; B9 No; BA Lo; BB Pf; BC No; BF Po; C0 Lu; D7 Sm; D8 Lu; DF Ll; F7 Sm; F8 Ll;
100 Lu Ll; 138 Ll Lu; 149 Ll Lu; 179 Lu Ll; 17F Ll; 181 Lu; 183 Ll Lu; 187 Lu Ll; 18A Lu;
18C Ll; 18E Lu; 192 Ll; 193 Lu; 195 Ll; 196 Lu; 199 Ll; 19C Lu; 19E Ll; 19F Lu; 1A1 Ll Lu;
1A7 Lu Ll; 1AB Ll Lu; 1AF Lu Ll; 1B2 Lu; 1B4 Ll Lu; 1B8 Lu; 1B9 Ll; 1BB Lo; 1BC Lu; 1BD Ll;
1C0 Lo; 1C4 Lu; 1C5 Lt; 1C6 Ll; 1C7 Lu; 1C8 Lt; 1C9 Ll; 1CA Lu; 1CB Lt; 1CC Ll Lu; 1DD Ll Lu;
1F0 Ll; 1F1 Lu; 1F2 Lt; 1F3 Ll Lu; 1F7 Lu; 1F9 Ll Lu; 234 Ll; 23A Lu; 23C Ll; 23D Lu; 23F Ll;
241 Lu Ll; 244 Lu; 247 Ll Lu; 250 Ll; 294 Lo; 295 Ll; 2B0 Lm; 2C2 Sk; 2C6 Lm; 2D2 Sk; 2E0 Lm;
2E5 Sk; 2EC Lm Sk; 2F0 Sk; 300 Mn; 370 Lu Ll; 374 Lm; 375 Sk; 376 Lu; 377 Ll; 378 Cn; 37A Lm;
37B Ll; 37E Po; 37F Lu; 380 Cn; 384 Sk; 386 Lu Po; 389 Lu; 38B Cn Lu; 38F Lu Ll; 392 Lu; 3A2 Cn;
3A3 Lu; 3AC Ll; 3CF Lu; 3D0 Ll; 3D2 Lu; 3D5 Ll; 3D8 Lu Ll; 3F0 Ll; 3F4 Lu; 3F5 Ll; 3F6 Sm;
3F7 Lu Ll; 3FA Lu; 3FB Ll; 3FD Lu; 430 Ll; 460 Lu Ll; 482 So; 483 Mn; 488 Me; 48A Lu Ll;
4C1 Lu Ll; 4CF Ll Lu; 530 Cn; 531 Lu; 557 Cn; 559 Lm; 55A Po; 560 Ll; 589 Po; 58A Pd; 58B Cn;
58D So; 58F Sc; 590 Cn; 591 Mn; 5BE Pd; 5BF Mn Po; 5C2 Mn Po; 5C5 Mn Po; 5C8 Cn; 5D0 Lo; 5EB Cn;
5EF Lo; 5F3 Po; 5F5 Cn; 600 Cf; 606 Sm; 609 Po; 60B Sc; 60C Po; 60E So; 610 Mn; 61B Po Cf;
61E Po; 620 Lo; 640 Lm; 641 Lo; 64B Mn; 660 Nd; 66A Po; 66E Lo; 670 Mn; 671 Lo; 6D4 Po; 6D5 Lo;
6D6 Mn; 6DD Cf; 6DE So; 6DF Mn; 6E5 Lm; 6E7 Mn; 6E9 So; 6EA Mn; 6EE Lo; 6F0 Nd; 6FA Lo; 6FD So;
6FF Lo; 700 Po; 70E Cn; 70F Cf; 710 Lo Mn; 713 Lo; 730 Mn; 74B Cn; 74D Lo; 7A6 Mn; 7B1 Lo;
7B2 Cn; 7C0 Nd; 7CA Lo; 7EB Mn; 7F4 Lm; 7F6 So; 7F7 Po; 7FA Lm; 7FB Cn; 7FD Mn; 7FE Sc; 800 Lo;
816 Mn; 81A Lm; 81B Mn; 824 Lm; 825 Mn; 828 Lm; 829 Mn; 82E Cn; 830 Po; 83F Cn; 840 Lo; 859 Mn;
85C Cn; 85E Po; 85F Cn; 860 Lo; 86B Cn; 870 Lo; 888 Sk; 889 Lo; 88F Cn; 890 Cf; 892 Cn; 898 Mn;
8A0 Lo; 8C9 Lm; 8CA Mn; 8E2 Cf; 8E3 Mn; 903 Mc; 904 Lo; 93A Mn Mc; 93D Lo; 93E Mc; 941 Mn;
949 Mc; 94D Mn; 94E Mc; 950 Lo; 951 Mn; 958 Lo; 962 Mn; 964 Po; 966 Nd; 970 Po; 971 Lm; 972 Lo;
981 Mn; 982 Mc; 984 Cn; 985 Lo; 98D Cn; 98F Lo; 991 Cn; 993 Lo; 9A9 Cn; 9AA Lo; 9B1 Cn Lo;
9B4 Cn; 9B6 Lo; 9BA Cn; 9BC Mn; 9BD Lo; 9BE Mc; 9C1 Mn; 9C5 Cn; 9C7 Mc; 9C9 Cn; 9CB Mc; 9CD Mn;
9CE Lo; 9CF Cn; 9D7 Mc; 9D8 Cn; 9DC Lo; 9DE Cn; 9DF Lo; 9E2 Mn; 9E4 Cn; 9E6 Nd; 9F0 Lo; 9F2 Sc;
9F4 No; 9FA So; 9FB Sc; 9FC Lo; 9FD Po; 9FE Mn; 9FF Cn; A01 Mn; A03 Mc; A04 Cn; A05 Lo; A0B Cn;
A0F Lo; A11 Cn; A13 Lo; A29 Cn; A2A Lo; A31 Cn; A32 Lo; A34 Cn; A35 Lo; A37 Cn; A38 Lo; A3A Cn;
A3C Mn; A3D Cn; A3E Mc; A41 Mn; A43 Cn; A47 Mn; A49 Cn; A4B Mn; A4E Cn; A51 Mn; A52 Cn; A59 Lo;
A5D Cn Lo; A60 Cn; A66 Nd; A70 Mn; A72 Lo; A75 Mn; A76 Po; A77 Cn; A81 Mn; A83 Mc; A84 Cn;
A85 Lo; A8E Cn; A8F Lo; A92 Cn; A93 Lo; AA9 Cn; AAA Lo; AB1 Cn; AB2 Lo; AB4 Cn; AB5 Lo; ABA Cn;
ABC Mn; ABD Lo; ABE Mc; AC1 Mn; AC6 Cn; AC7 Mn; AC9 Mc Cn; ACC Mc; ACD Mn; ACE Cn; AD0 Lo;
AD1 Cn; AE0 Lo; AE2 Mn; AE4 Cn; AE6 Nd; AF0 Po; AF1 Sc; AF2 Cn; AF9 Lo; AFA Mn; B00 Cn; B01 Mn;
B02 Mc; B04 Cn; B05 Lo; B0D Cn; B0F Lo; B11 Cn; B13 Lo; B29 Cn; B2A Lo; B31 Cn; B32 Lo; B34 Cn;
B35 Lo; B3A Cn; B3C Mn; B3D Lo; B3E Mc Mn; B42 Mn; B45 Cn; B47 Mc; B49 Cn; B4B Mc; B4D Mn;
B4E Cn; B55 Mn; B57 Mc; B58 Cn; B5C Lo; B5E Cn; B5F Lo; B62 Mn; B64 Cn; B66 Nd; B70 So; B71 Lo;
B72 No; B78 Cn; B82 Mn; B83 Lo Cn; B86 Lo; B8B Cn; B8E Lo; B91 Cn; B92 Lo; B96 Cn; B99 Lo;
B9B Cn Lo; B9F Lo; BA0 Cn; BA3 Lo; BA5 Cn; BA8 Lo; BAB Cn; BAE Lo; BBA Cn; BBE Mc; BC0 Mn;
BC1 Mc; BC3 Cn; BC6 Mc; BC9 Cn; BCA Mc; BCD Mn; BCE Cn; BD0 Lo; BD1 Cn; BD7 Mc; BD8 Cn; BE6 Nd;
BF0 No; BF3 So; BF9 Sc; BFA So; BFB Cn; C00 Mn; C01 Mc; C04 Mn; C05 Lo; C0D Cn; C0E Lo; C11 Cn;
C12 Lo; C29 Cn; C2A Lo; C3A Cn; C3C Mn Lo; C3F Mn; C41 Mc; C45 Cn; C46 Mn; C49 Cn; C4A Mn;
C4E Cn; C55 Mn; C57 Cn; C58 Lo; C5B Cn; C5D Lo; C5E Cn; C60 Lo; C62 Mn; C64 Cn; C66 Nd; C70 Cn;
C77 Po; C78 No; C7F So; C80 Lo; C81 Mn; C82 Mc; C84 Po; C85 Lo; C8D Cn; C8E Lo; C91 Cn; C92 Lo;
CA9 Cn; CAA Lo; CB4 Cn; CB5 Lo; CBA Cn; CBC Mn; CBD Lo; CBE Mc Mn; CC1 Mc; CC5 Cn; CC6 Mn;
CC7 Mc; CC9 Cn; CCA Mc; CCC Mn; CCE Cn; CD5 Mc; CD7 Cn; CDD Lo; CDF Cn; CE0 Lo; CE2 Mn; CE4 Cn;
CE6 Nd; CF0 Cn; CF1 Lo; CF3 Mc; CF4 Cn; D00 Mn; D02 Mc; D04 Lo; D0D Cn; D0E Lo; D11 Cn; D12 Lo;
D3B Mn; D3D Lo; D3E Mc; D41 Mn; D45 Cn; D46 Mc; D49 Cn; D4A Mc; D4D Mn; D4E Lo; D4F So; D50 Cn;
D54 Lo; D57 Mc; D58 No; D5F Lo; D62 Mn; D64 Cn; D66 Nd; D70 No; D79 So; D7A Lo; D80 Cn; D81 Mn;
D82 Mc; D84 Cn; D85 Lo; D97 Cn; D9A Lo; DB2 Cn; DB3 Lo; DBC Cn Lo; DBF Cn; DC0 Lo; DC7 Cn;
DCA Mn; DCB Cn; DCF Mc; DD2 Mn; DD5 Cn Mn; DD8 Mc; DE0 Cn; DE6 Nd; DF0 Cn; DF2 Mc; DF4 Po;
DF5 Cn; E01 Lo; E31 Mn; E32 Lo; E34 Mn; E3B Cn; E3F Sc; E40 Lo; E46 Lm; E47 Mn; E4F Po; E50 Nd;
E5A Po; E5C Cn; E81 Lo; E83 Cn Lo; E87 Lo; E8B Cn; E8C Lo; EA4 Cn Lo; EA8 Lo; EB1 Mn; EB2 Lo;
EB4 Mn; EBD Lo; EBE Cn; EC0 Lo; EC5 Cn Lm; EC8 Mn; ECF Cn; ED0 Nd; EDA Cn; EDC Lo; EE0 Cn;
F00 Lo; F01 So; F04 Po; F13 So Po; F16 So; F18 Mn; F1A So; F20 Nd; F2A No; F34 So Mn; F3A Ps Pe;
F3E Mc; F40 Lo; F48 Cn; F49 Lo; F6D Cn; F71 Mn; F7F Mc; F80 Mn; F85 Po; F86 Mn; F88 Lo; F8D Mn;
F98 Cn; F99 Mn; FBD Cn; FBE So; FC6 Mn; FC7 So; FCD Cn; FCE So; FD0 Po; FD5 So; FD9 Po; FDB Cn;
1000 Lo; 102B Mc; 102D Mn; 1031 Mc; 1032 Mn; 1038 Mc; 1039 Mn; 103B Mc; 103D Mn; 103F Lo;
1040 Nd; 104A Po; 1050 Lo; 1056 Mc; 1058 Mn; 105A Lo; 105E Mn; 1061 Lo; 1062 Mc; 1065 Lo;
1067 Mc; 106E Lo; 1071 Mn; 1075 Lo; 1082 Mn; 1083 Mc; 1085 Mn; 1087 Mc; 108D Mn; 108E Lo;
108F Mc; 1090 Nd; 109A Mc; 109D Mn; 109E So; 10A0 Lu; 10C6 Cn Lu; 10C9 Cn; 10CD Lu; 10CE Cn;
10D0 Ll; 10FB Po; 10FC Lm; 10FD Ll; 1100 Lo; 1249 Cn; 124A Lo; 124E Cn; 1250 Lo; 1257 Cn Lo;
125B Lo; 125E Cn; 1260 Lo; 1289 Cn; 128A Lo; 128E Cn; 1290 Lo; 12B1 Cn; 12B2 Lo; 12B6 Cn;
12B8 Lo; 12BF Cn Lo; 12C3 Lo; 12C6 Cn; 12C8 Lo; 12D7 Cn; 12D8 Lo; 1311 Cn; 1312 Lo; 1316 Cn;
1318 Lo; 135B Cn; 135D Mn; 1360 Po; 1369 No; 137D Cn; 1380 Lo; 1390 So; 139A Cn; 13A0 Lu;
13F6 Cn; 13F8 Ll; 13FE Cn; 1400 Pd; 1401 Lo; 166D So; 166E Po; 166F Lo; 1680 Zs; 1681 Lo;
169B Ps; 169C Pe; 169D Cn; 16A0 Lo; 16EB Po; 16EE Nl; 16F1 Lo; 16F9 Cn; 1700 Lo; 1712 Mn;
1715 Mc; 1716 Cn; 171F Lo; 1732 Mn; 1734 Mc; 1735 Po; 1737 Cn; 1740 Lo; 1752 Mn; 1754 Cn;
1760 Lo; 176D Cn; 176E Lo; 1771 Cn; 1772 Mn; 1774 Cn; 1780 Lo; 17B4 Mn; 17B6 Mc; 17B7 Mn;
17BE Mc; 17C6 Mn; 17C7 Mc; 17C9 Mn; 17D4 Po; 17D7 Lm; 17D8 Po; 17DB Sc; 17DC Lo; 17DD Mn;
17DE Cn; 17E0 Nd; 17EA Cn; 17F0 No; 17FA Cn; 1800 Po; 1806 Pd; 1807 Po; 180B Mn; 180E Cf;
180F Mn; 1810 Nd; 181A Cn; 1820 Lo; 1843 Lm; 1844 Lo; 1879 Cn; 1880 Lo; 1885 Mn; 1887 Lo;
18A9 Mn; 18AA Lo; 18AB Cn; 18B0 Lo; 18F6 Cn; 1900 Lo; 191F Cn; 1920 Mn; 1923 Mc; 1927 Mn;
1929 Mc; 192C Cn; 1930 Mc; 1932 Mn; 1933 Mc; 1939 Mn; 193C Cn; 1940 So; 1941 Cn; 1944 Po;
1946 Nd; 1950 Lo; 196E Cn; 1970 Lo; 1975 Cn; 1980 Lo; 19AC Cn; 19B0 Lo; 19CA Cn; 19D0 Nd;
19DA No; 19DB Cn; 19DE So; 1A00 Lo; 1A17 Mn; 1A19 Mc; 1A1B Mn; 1A1C Cn; 1A1E Po; 1A20 Lo;
1A55 Mc Mn; 1A59 Mn; 1A5F Cn; 1A60 Mn Mc; 1A64 Mc; 1A65 Mn; 1A6D Mc; 1A73 Mn; 1A7D Cn; 1A7F Mn;
1A80 Nd; 1A8A Cn; 1A90 Nd; 1A9A Cn; 1AA0 Po; 1AA7 Lm; 1AA8 Po; 1AAE Cn; 1AB0 Mn; 1ABE Me;
1ABF Mn; 1ACF Cn; 1B00 Mn; 1B04 Mc; 1B05 Lo; 1B34 Mn Mc; 1B37 Mn; 1B3B Mc Mn; 1B3E Mc; 1B42 Mn;
1B43 Mc; 1B45 Lo; 1B4D Cn; 1B50 Nd; 1B5A Po; 1B61 So; 1B6B Mn; 1B74 So; 1B7D Po; 1B7F Cn;
1B80 Mn; 1B82 Mc; 1B83 Lo; 1BA1 Mc; 1BA2 Mn; 1BA6 Mc; 1BA8 Mn; 1BAA Mc; 1BAB Mn; 1BAE Lo;
1BB0 Nd; 1BBA Lo; 1BE6 Mn Mc; 1BE9 Mn; 1BEA Mc; 1BED Mn Mc; 1BF0 Mn; 1BF2 Mc; 1BF4 Cn; 1BFC Po;
1C00 Lo; 1C24 Mc; 1C2C Mn; 1C34 Mc; 1C36 Mn; 1C38 Cn; 1C3B Po; 1C40 Nd; 1C4A Cn; 1C4D Lo;
1C50 Nd; 1C5A Lo; 1C78 Lm; 1C7E Po; 1C80 Ll; 1C89 Cn; 1C90 Lu; 1CBB Cn; 1CBD Lu; 1CC0 Po;
1CC8 Cn; 1CD0 Mn; 1CD3 Po; 1CD4 Mn; 1CE1 Mc; 1CE2 Mn; 1CE9 Lo; 1CED Mn; 1CEE Lo; 1CF4 Mn;
1CF5 Lo; 1CF7 Mc; 1CF8 Mn; 1CFA Lo; 1CFB Cn; 1D00 Ll; 1D2C Lm; 1D6B Ll; 1D78 Lm; 1D79 Ll;
1D9B Lm; 1DC0 Mn; 1E00 Lu Ll; 1E96 Ll; 1E9E Lu Ll; 1F00 Ll; 1F08 Lu; 1F10 Ll; 1F16 Cn; 1F18 Lu;
1F1E Cn; 1F20 Ll; 1F28 Lu; 1F30 Ll; 1F38 Lu; 1F40 Ll; 1F46 Cn; 1F48 Lu; 1F4E Cn; 1F50 Ll;
1F58 Cn Lu; 1F60 Ll; 1F68 Lu; 1F70 Ll; 1F7E Cn; 1F80 Ll; 1F88 Lt; 1F90 Ll; 1F98 Lt; 1FA0 Ll;
1FA8 Lt; 1FB0 Ll; 1FB5 Cn; 1FB6 Ll; 1FB8 Lu; 1FBC Lt; 1FBD Sk Ll; 1FC0 Sk; 1FC2 Ll; 1FC5 Cn;
1FC6 Ll; 1FC8 Lu; 1FCC Lt; 1FCD Sk; 1FD0 Ll; 1FD4 Cn; 1FD6 Ll; 1FD8 Lu; 1FDC Cn; 1FDD Sk;
1FE0 Ll; 1FE8 Lu; 1FED Sk; 1FF0 Cn; 1FF2 Ll; 1FF5 Cn; 1FF6 Ll; 1FF8 Lu; 1FFC Lt; 1FFD Sk;
1FFF Cn; 2000 Zs; 200B Cf; 2010 Pd; 2016 Po; 2018 Pi; 2019 Pf; 201A Ps; 201B Pi; 201D Pf;
201E Ps; 201F Pi; 2020 Po; 2028 Zl; 2029 Zp; 202A Cf; 202F Zs; 2030 Po; 2039 Pi; 203A Pf;
203B Po; 203F Pc; 2041 Po; 2044 Sm; 2045 Ps; 2046 Pe; 2047 Po; 2052 Sm; 2053 Po Pc; 2056 Po;
205F Zs; 2060 Cf; 2065 Cn; 2066 Cf; 2070 No; 2071 Lm; 2072 Cn; 2074 No; 207A Sm; 207D Ps;
207E Pe; 207F Lm; 2080 No; 208A Sm; 208D Ps; 208E Pe; 208F Cn; 2090 Lm; 209D Cn; 20A0 Sc;
20C1 Cn; 20D0 Mn; 20DD Me; 20E1 Mn; 20E2 Me; 20E5 Mn; 20F1 Cn; 2100 So; 2102 Lu; 2103 So;
2107 Lu; 2108 So; 210A Ll; 210B Lu; 210E Ll; 2110 Lu; 2113 Ll; 2114 So Lu; 2117 So; 2118 Sm;
2119 Lu; 211E So; 2124 Lu So; 212B Lu; 212E So; 212F Ll; 2130 Lu; 2134 Ll; 2135 Lo; 2139 Ll;
213A So; 213C Ll; 213E Lu; 2140 Sm; 2145 Lu; 2146 Ll; 214A So Sm; 214D So Ll; 2150 No; 2160 Nl;
2183 Lu; 2184 Ll; 2185 Nl; 2189 No; 218A So; 218C Cn; 2190 Sm; 2195 So; 219A Sm; 219C So;
21A0 Sm; 21A1 So; 21A3 Sm; 21A4 So; 21A6 Sm; 21A7 So; 21AE Sm; 21AF So; 21CE Sm; 21D0 So;
21D2 Sm So; 21D6 So; 21F4 Sm; 2300 So; 2308 Ps Pe; 230C So; 2320 Sm; 2322 So; 2329 Ps; 232A Pe;
232B So; 237C Sm; 237D So; 239B Sm; 23B4 So; 23DC Sm; 23E2 So; 2427 Cn; 2440 So; 244B Cn;
2460 No; 249C So; 24EA No; 2500 So; 25B7 Sm; 25B8 So; 25C1 Sm; 25C2 So; 25F8 Sm; 2600 So;
266F Sm; 2670 So; 2768 Ps Pe; 2776 No; 2794 So; 27C0 Sm; 27C5 Ps; 27C6 Pe; 27C7 Sm; 27E6 Ps Pe;
27F0 Sm; 2800 So; 2900 Sm; 2983 Ps Pe; 2999 Sm; 29D8 Ps Pe; 29DC Sm; 29FC Ps; 29FD Pe; 29FE Sm;
2B00 So; 2B30 Sm; 2B45 So; 2B47 Sm; 2B4D So; 2B74 Cn; 2B76 So; 2B96 Cn; 2B97 So; 2C00 Lu;
2C30 Ll; 2C60 Lu Ll; 2C63 Lu; 2C65 Ll; 2C67 Lu Ll; 2C6E Lu; 2C71 Ll Lu; 2C74 Ll Lu; 2C77 Ll;
2C7C Lm; 2C7E Lu; 2C81 Ll Lu; 2CE4 Ll; 2CE5 So; 2CEB Lu Ll; 2CEF Mn; 2CF2 Lu; 2CF3 Ll; 2CF4 Cn;
2CF9 Po; 2CFD No; 2CFE Po; 2D00 Ll; 2D26 Cn Ll; 2D29 Cn; 2D2D Ll; 2D2E Cn; 2D30 Lo; 2D68 Cn;
2D6F Lm; 2D70 Po; 2D71 Cn; 2D7F Mn; 2D80 Lo; 2D97 Cn; 2DA0 Lo; 2DA7 Cn; 2DA8 Lo; 2DAF Cn;
2DB0 Lo; 2DB7 Cn; 2DB8 Lo; 2DBF Cn; 2DC0 Lo; 2DC7 Cn; 2DC8 Lo; 2DCF Cn; 2DD0 Lo; 2DD7 Cn;
2DD8 Lo; 2DDF Cn; 2DE0 Mn; 2E00 Po; 2E02 Pi Pf; 2E06 Po; 2E09 Pi; 2E0A Pf; 2E0B Po; 2E0C Pi;
2E0D Pf; 2E0E Po; 2E17 Pd; 2E18 Po; 2E1A Pd; 2E1B Po; 2E1C Pi; 2E1D Pf; 2E1E Po; 2E20 Pi;
2E21 Pf; 2E22 Ps Pe; 2E2A Po; 2E2F Lm; 2E30 Po; 2E3A Pd; 2E3C Po; 2E40 Pd; 2E41 Po Ps; 2E44 Po;
2E50 So; 2E52 Po; 2E55 Ps Pe; 2E5D Pd; 2E5E Cn; 2E80 So; 2E9A Cn; 2E9B So; 2EF4 Cn; 2F00 So;
2FD6 Cn; 2FF0 So; 3000 Zs; 3001 Po; 3004 So; 3005 Lm; 3006 Lo; 3007 Nl; 3008 Ps Pe; 3012 So;
3014 Ps Pe; 301C Pd; 301D Ps; 301E Pe; 3020 So; 3021 Nl; 302A Mn; 302E Mc; 3030 Pd; 3031 Lm;
3036 So; 3038 Nl; 303B Lm; 303C Lo; 303D Po; 303E So; 3040 Cn; 3041 Lo; 3097 Cn; 3099 Mn;
309B Sk; 309D Lm; 309F Lo Pd; 30A2 Lo; 30FB Po; 30FC Lm; 30FF Lo; 3100 Cn; 3105 Lo; 3130 Cn;
3131 Lo; 318F Cn; 3190 So; 3192 No; 3196 So; 31A0 Lo; 31C0 So; 31E4 Cn; 31EF So; 31F0 Lo;
3200 So; 321F Cn; 3220 No; 322A So; 3248 No; 3250 So; 3251 No; 3260 So; 3280 No; 328A So;
32B1 No; 32C0 So; 3400 Lo; 4DC0 So; 4E00 Lo; A015 Lm; A016 Lo; A48D Cn; A490 So; A4C7 Cn;
A4D0 Lo; A4F8 Lm; A4FE Po; A500 Lo; A60C Lm; A60D Po; A610 Lo; A620 Nd; A62A Lo; A62C Cn;
A640 Lu Ll; A66E Lo; A66F Mn; A670 Me; A673 Po; A674 Mn; A67E Po; A67F Lm; A680 Lu Ll; A69C Lm;
A69E Mn; A6A0 Lo; A6E6 Nl; A6F0 Mn; A6F2 Po; A6F8 Cn; A700 Sk; A717 Lm; A720 Sk; A722 Lu Ll;
A730 Ll; A732 Lu Ll; A770 Lm; A771 Ll; A779 Lu Ll; A77E Lu Ll; A788 Lm; A789 Sk; A78B Lu Ll;
A78F Lo; A790 Lu Ll; A794 Ll; A796 Lu Ll; A7AB Lu; A7AF Ll; A7B0 Lu; A7B5 Ll Lu; A7C5 Lu;
A7C8 Ll Lu; A7CB Cn; A7D0 Lu; A7D1 Ll Cn; A7D6 Lu Ll; A7DA Cn; A7F2 Lm; A7F5 Lu; A7F6 Ll;
A7F7 Lo; A7F8 Lm; A7FA Ll; A7FB Lo; A802 Mn; A803 Lo; A806 Mn; A807 Lo; A80B Mn; A80C Lo;
A823 Mc; A825 Mn; A827 Mc; A828 So; A82C Mn; A82D Cn; A830 No; A836 So; A838 Sc; A839 So;
A83A Cn; A840 Lo; A874 Po; A878 Cn; A880 Mc; A882 Lo; A8B4 Mc; A8C4 Mn; A8C6 Cn; A8CE Po;
A8D0 Nd; A8DA Cn; A8E0 Mn; A8F2 Lo; A8F8 Po; A8FB Lo Po; A8FE Lo; A8FF Mn; A900 Nd; A90A Lo;
A926 Mn; A92E Po; A930 Lo; A947 Mn; A952 Mc; A954 Cn; A95F Po; A960 Lo; A97D Cn; A980 Mn;
A983 Mc; A984 Lo; A9B3 Mn; A9B4 Mc; A9B6 Mn; A9BA Mc; A9BC Mn; A9BE Mc; A9C1 Po; A9CE Cn;
A9CF Lm; A9D0 Nd; A9DA Cn; A9DE Po; A9E0 Lo; A9E5 Mn; A9E6 Lm; A9E7 Lo; A9F0 Nd; A9FA Lo;
A9FF Cn; AA00 Lo; AA29 Mn; AA2F Mc; AA31 Mn; AA33 Mc; AA35 Mn; AA37 Cn; AA40 Lo; AA43 Mn;
AA44 Lo; AA4C Mn; AA4D Mc; AA4E Cn; AA50 Nd; AA5A Cn; AA5C Po; AA60 Lo; AA70 Lm; AA71 Lo;
AA77 So; AA7A Lo; AA7B Mc Mn; AA7E Lo; AAB0 Mn Lo; AAB3 Mn; AAB5 Lo; AAB7 Mn; AAB9 Lo; AABE Mn;
AAC0 Lo Mn; AAC3 Cn; AADB Lo; AADD Lm; AADE Po; AAE0 Lo; AAEB Mc; AAEC Mn; AAEE Mc; AAF0 Po;
AAF2 Lo; AAF3 Lm; AAF5 Mc; AAF6 Mn; AAF7 Cn; AB01 Lo; AB07 Cn; AB09 Lo; AB0F Cn; AB11 Lo;
AB17 Cn; AB20 Lo; AB27 Cn; AB28 Lo; AB2F Cn; AB30 Ll; AB5B Sk; AB5C Lm; AB60 Ll; AB69 Lm;
AB6A Sk; AB6C Cn; AB70 Ll; ABC0 Lo; ABE3 Mc; ABE5 Mn; ABE6 Mc; ABE8 Mn; ABE9 Mc; ABEB Po;
ABEC Mc; ABED Mn; ABEE Cn; ABF0 Nd; ABFA Cn; AC00 Lo; D7A4 Cn; D7B0 Lo; D7C7 Cn; D7CB Lo;
D7FC Cn; D800 Cs; E000 Co; F900 Lo; FA6E Cn; FA70 Lo; FADA Cn; FB00 Ll; FB07 Cn; FB13 Ll;
FB18 Cn; FB1D Lo Mn; FB20 Lo; FB29 Sm; FB2A Lo; FB37 Cn; FB38 Lo; FB3D Cn Lo; FB41 Lo Cn;
FB44 Lo Cn; FB47 Lo; FBB2 Sk; FBC3 Cn; FBD3 Lo; FD3E Pe; FD3F Ps; FD40 So; FD50 Lo; FD90 Cn;
FD92 Lo; FDC8 Cn; FDCF So; FDD0 Cn; FDF0 Lo; FDFC Sc; FDFD So; FE00 Mn; FE10 Po; FE17 Ps;
FE18 Pe; FE19 Po; FE1A Cn; FE20 Mn; FE30 Po; FE31 Pd; FE33 Pc; FE35 Ps Pe; FE45 Po; FE47 Ps;
FE48 Pe; FE49 Po; FE4D Pc; FE50 Po; FE53 Cn; FE54 Po; FE58 Pd; FE59 Ps Pe; FE5F Po; FE62 Sm Pd;
FE65 Sm; FE67 Cn; FE68 Po Sc; FE6B Po; FE6C Cn; FE70 Lo; FE75 Cn; FE76 Lo; FEFD Cn; FEFF Cf;
FF00 Cn; FF01 Po; FF04 Sc; FF05 Po; FF08 Ps; FF09 Pe; FF0A Po Sm; FF0D Pd; FF0E Po; FF10 Nd;
FF1A Po; FF1C Sm; FF1F Po; FF21 Lu; FF3B Ps; FF3C Po; FF3D Pe; FF3E Sk Pc; FF41 Ll; FF5B Ps;
FF5C Sm Pe; FF5F Ps; FF60 Pe; FF61 Po; FF62 Ps; FF63 Pe; FF64 Po; FF66 Lo; FF70 Lm; FF71 Lo;
FF9E Lm; FFA0 Lo; FFBF Cn; FFC2 Lo; FFC8 Cn; FFCA Lo; FFD0 Cn; FFD2 Lo; FFD8 Cn; FFDA Lo;
FFDD Cn; FFE0 Sc; FFE2 Sm; FFE3 Sk; FFE4 So; FFE5 Sc; FFE7 Cn; FFE8 So; FFE9 Sm; FFED So;
FFEF Cn; FFF9 Cf; FFFC So; FFFE Cn; 10000 Lo; 1000C Cn; 1000D Lo; 10027 Cn; 10028 Lo; 1003B Cn;
1003C Lo; 1003E Cn; 1003F Lo; 1004E Cn; 10050 Lo; 1005E Cn; 10080 Lo; 100FB Cn; 10100 Po;
10103 Cn; 10107 No; 10134 Cn; 10137 So; 10140 Nl; 10175 No; 10179 So; 1018A No; 1018C So;
1018F Cn; 10190 So; 1019D Cn; 101A0 So; 101A1 Cn; 101D0 So; 101FD Mn; 101FE Cn; 10280 Lo;
1029D Cn; 102A0 Lo; 102D1 Cn; 102E0 Mn; 102E1 No; 102FC Cn; 10300 Lo; 10320 No; 10324 Cn;
1032D Lo; 10341 Nl; 10342 Lo; 1034A Nl; 1034B Cn; 10350 Lo; 10376 Mn; 1037B Cn; 10380 Lo;
1039E Cn; 1039F Po; 103A0 Lo; 103C4 Cn; 103C8 Lo; 103D0 Po; 103D1 Nl; 103D6 Cn; 10400 Lu;
10428 Ll; 10450 Lo; 1049E Cn; 104A0 Nd; 104AA Cn; 104B0 Lu; 104D4 Cn; 104D8 Ll; 104FC Cn;
10500 Lo; 10528 Cn; 10530 Lo; 10564 Cn; 1056F Po; 10570 Lu; 1057B Cn; 1057C Lu; 1058B Cn;
1058C Lu; 10593 Cn; 10594 Lu; 10596 Cn; 10597 Ll; 105A2 Cn; 105A3 Ll; 105B2 Cn; 105B3 Ll;
105BA Cn; 105BB Ll; 105BD Cn; 10600 Lo; 10737 Cn; 10740 Lo; 10756 Cn; 10760 Lo; 10768 Cn;
10780 Lm; 10786 Cn; 10787 Lm; 107B1 Cn; 107B2 Lm; 107BB Cn; 10800 Lo; 10806 Cn; 10808 Lo Cn;
1080B Lo; 10836 Cn; 10837 Lo; 10839 Cn; 1083C Lo; 1083D Cn; 1083F Lo; 10856 Cn; 10857 Po;
10858 No; 10860 Lo; 10877 So; 10879 No; 10880 Lo; 1089F Cn; 108A7 No; 108B0 Cn; 108E0 Lo;
108F3 Cn; 108F4 Lo; 108F6 Cn; 108FB No; 10900 Lo; 10916 No; 1091C Cn; 1091F Po; 10920 Lo;
1093A Cn; 1093F Po; 10940 Cn; 10980 Lo; 109B8 Cn; 109BC No; 109BE Lo; 109C0 No; 109D0 Cn;
109D2 No; 10A00 Lo; 10A01 Mn; 10A04 Cn; 10A05 Mn; 10A07 Cn; 10A0C Mn; 10A10 Lo; 10A14 Cn;
10A15 Lo; 10A18 Cn; 10A19 Lo; 10A36 Cn; 10A38 Mn; 10A3B Cn; 10A3F Mn; 10A40 No; 10A49 Cn;
10A50 Po; 10A59 Cn; 10A60 Lo; 10A7D No; 10A7F Po; 10A80 Lo; 10A9D No; 10AA0 Cn; 10AC0 Lo;
10AC8 So; 10AC9 Lo; 10AE5 Mn; 10AE7 Cn; 10AEB No; 10AF0 Po; 10AF7 Cn; 10B00 Lo; 10B36 Cn;
10B39 Po; 10B40 Lo; 10B56 Cn; 10B58 No; 10B60 Lo; 10B73 Cn; 10B78 No; 10B80 Lo; 10B92 Cn;
10B99 Po; 10B9D Cn; 10BA9 No; 10BB0 Cn; 10C00 Lo; 10C49 Cn; 10C80 Lu; 10CB3 Cn; 10CC0 Ll;
10CF3 Cn; 10CFA No; 10D00 Lo; 10D24 Mn; 10D28 Cn; 10D30 Nd; 10D3A Cn; 10E60 No; 10E7F Cn;
10E80 Lo; 10EAA Cn; 10EAB Mn; 10EAD Pd; 10EAE Cn; 10EB0 Lo; 10EB2 Cn; 10EFD Mn; 10F00 Lo;
10F1D No; 10F27 Lo; 10F28 Cn; 10F30 Lo; 10F46 Mn; 10F51 No; 10F55 Po; 10F5A Cn; 10F70 Lo;
10F82 Mn; 10F86 Po; 10F8A Cn; 10FB0 Lo; 10FC5 No; 10FCC Cn; 10FE0 Lo; 10FF7 Cn; 11000 Mc Mn;
11003 Lo; 11038 Mn; 11047 Po; 1104E Cn; 11052 No; 11066 Nd; 11070 Mn; 11071 Lo; 11073 Mn;
11075 Lo; 11076 Cn; 1107F Mn; 11082 Mc; 11083 Lo; 110B0 Mc; 110B3 Mn; 110B7 Mc; 110B9 Mn;
110BB Po; 110BD Cf; 110BE Po; 110C2 Mn; 110C3 Cn; 110CD Cf; 110CE Cn; 110D0 Lo; 110E9 Cn;
110F0 Nd; 110FA Cn; 11100 Mn; 11103 Lo; 11127 Mn; 1112C Mc; 1112D Mn; 11135 Cn; 11136 Nd;
11140 Po; 11144 Lo; 11145 Mc; 11147 Lo; 11148 Cn; 11150 Lo; 11173 Mn; 11174 Po; 11176 Lo;
11177 Cn; 11180 Mn; 11182 Mc; 11183 Lo; 111B3 Mc; 111B6 Mn; 111BF Mc; 111C1 Lo; 111C5 Po;
111C9 Mn; 111CD Po; 111CE Mc; 111CF Mn; 111D0 Nd; 111DA Lo Po; 111DE Po; 111E0 Cn; 111E1 No;
111F5 Cn; 11200 Lo; 11212 Cn; 11213 Lo; 1122C Mc; 1122F Mn; 11232 Mc; 11234 Mn Mc; 11237 Mn;
11238 Po; 1123E Mn; 1123F Lo; 11241 Mn; 11242 Cn; 11280 Lo; 11287 Cn Lo; 1128B Lo; 1128E Cn;
1128F Lo; 1129E Cn; 1129F Lo; 112A9 Po; 112AA Cn; 112B0 Lo; 112DF Mn; 112E0 Mc; 112E3 Mn;
112EB Cn; 112F0 Nd; 112FA Cn; 11300 Mn; 11302 Mc; 11304 Cn; 11305 Lo; 1130D Cn; 1130F Lo;
11311 Cn; 11313 Lo; 11329 Cn; 1132A Lo; 11331 Cn; 11332 Lo; 11334 Cn; 11335 Lo; 1133A Cn;
1133B Mn; 1133D Lo; 1133E Mc; 11340 Mn; 11341 Mc; 11345 Cn; 11347 Mc; 11349 Cn; 1134B Mc;
1134E Cn; 11350 Lo; 11351 Cn; 11357 Mc; 11358 Cn; 1135D Lo; 11362 Mc; 11364 Cn; 11366 Mn;
1136D Cn; 11370 Mn; 11375 Cn; 11400 Lo; 11435 Mc; 11438 Mn; 11440 Mc; 11442 Mn; 11445 Mc;
11446 Mn; 11447 Lo; 1144B Po; 11450 Nd; 1145A Po; 1145C Cn; 1145D Po; 1145E Mn; 1145F Lo;
11462 Cn; 11480 Lo; 114B0 Mc; 114B3 Mn; 114B9 Mc Mn; 114BC Mc; 114BF Mn; 114C1 Mc; 114C2 Mn;
114C4 Lo; 114C6 Po; 114C7 Lo; 114C8 Cn; 114D0 Nd; 114DA Cn; 11580 Lo; 115AF Mc; 115B2 Mn;
115B6 Cn; 115B8 Mc; 115BC Mn; 115BE Mc; 115BF Mn; 115C1 Po; 115D8 Lo; 115DC Mn; 115DE Cn;
11600 Lo; 11630 Mc; 11633 Mn; 1163B Mc; 1163D Mn Mc; 11640 Mn; 11641 Po; 11644 Lo; 11645 Cn;
11650 Nd; 1165A Cn; 11660 Po; 1166D Cn; 11680 Lo; 116AB Mn Mc; 116AF Mc; 116B0 Mn; 116B6 Mc;
116B7 Mn; 116B8 Lo; 116B9 Po; 116BA Cn; 116C0 Nd; 116CA Cn; 11700 Lo; 1171B Cn; 1171D Mn;
11720 Mc; 11722 Mn; 11726 Mc; 11727 Mn; 1172C Cn; 11730 Nd; 1173A No; 1173C Po; 1173F So;
11740 Lo; 11747 Cn; 11800 Lo; 1182C Mc; 1182F Mn; 11838 Mc; 11839 Mn; 1183B Po; 1183C Cn;
118A0 Lu; 118C0 Ll; 118E0 Nd; 118EA No; 118F3 Cn; 118FF Lo; 11907 Cn; 11909 Lo; 1190A Cn;
1190C Lo; 11914 Cn; 11915 Lo; 11917 Cn; 11918 Lo; 11930 Mc; 11936 Cn; 11937 Mc; 11939 Cn;
1193B Mn; 1193D Mc; 1193E Mn; 1193F Lo Mc; 11943 Mn; 11944 Po; 11947 Cn; 11950 Nd; 1195A Cn;
119A0 Lo; 119A8 Cn; 119AA Lo; 119D1 Mc; 119D4 Mn; 119D8 Cn; 119DA Mn; 119DC Mc; 119E0 Mn;
119E1 Lo Po; 119E4 Mc; 119E5 Cn; 11A00 Lo; 11A01 Mn; 11A0B Lo; 11A33 Mn; 11A39 Mc; 11A3A Lo;
11A3B Mn; 11A3F Po; 11A47 Mn; 11A48 Cn; 11A50 Lo; 11A51 Mn; 11A57 Mc; 11A59 Mn; 11A5C Lo;
11A8A Mn; 11A97 Mc; 11A98 Mn; 11A9A Po; 11A9D Lo; 11A9E Po; 11AA3 Cn; 11AB0 Lo; 11AF9 Cn;
11B00 Po; 11B0A Cn; 11C00 Lo; 11C09 Cn; 11C0A Lo; 11C2F Mc; 11C30 Mn; 11C37 Cn; 11C38 Mn;
11C3E Mc; 11C3F Mn; 11C40 Lo; 11C41 Po; 11C46 Cn; 11C50 Nd; 11C5A No; 11C6D Cn; 11C70 Po;
11C72 Lo; 11C90 Cn; 11C92 Mn; 11CA8 Cn; 11CA9 Mc; 11CAA Mn; 11CB1 Mc; 11CB2 Mn; 11CB4 Mc;
11CB5 Mn; 11CB7 Cn; 11D00 Lo; 11D07 Cn; 11D08 Lo; 11D0A Cn; 11D0B Lo; 11D31 Mn; 11D37 Cn;
11D3A Mn Cn; 11D3D Mn Cn; 11D40 Mn; 11D46 Lo; 11D47 Mn; 11D48 Cn; 11D50 Nd; 11D5A Cn; 11D60 Lo;
11D66 Cn; 11D67 Lo; 11D69 Cn; 11D6A Lo; 11D8A Mc; 11D8F Cn; 11D90 Mn; 11D92 Cn; 11D93 Mc;
11D95 Mn Mc; 11D98 Lo; 11D99 Cn; 11DA0 Nd; 11DAA Cn; 11EE0 Lo; 11EF3 Mn; 11EF5 Mc; 11EF7 Po;
11EF9 Cn; 11F00 Mn; 11F02 Lo Mc; 11F05 Lo; 11F11 Cn; 11F12 Lo; 11F34 Mc; 11F36 Mn; 11F3B Cn;
11F3E Mc; 11F40 Mn Mc; 11F43 Po; 11F50 Nd; 11F5A Cn; 11FB0 Lo; 11FB1 Cn; 11FC0 No; 11FD5 So;
11FDD Sc; 11FE1 So; 11FF2 Cn; 11FFF Po; 12000 Lo; 1239A Cn; 12400 Nl; 1246F Cn; 12470 Po;
12475 Cn; 12480 Lo; 12544 Cn; 12F90 Lo; 12FF1 Po; 12FF3 Cn; 13000 Lo; 13430 Cf; 13440 Mn;
13441 Lo; 13447 Mn; 13456 Cn; 14400 Lo; 14647 Cn; 16800 Lo; 16A39 Cn; 16A40 Lo; 16A5F Cn;
16A60 Nd; 16A6A Cn; 16A6E Po; 16A70 Lo; 16ABF Cn; 16AC0 Nd; 16ACA Cn; 16AD0 Lo; 16AEE Cn;
16AF0 Mn; 16AF5 Po; 16AF6 Cn; 16B00 Lo; 16B30 Mn; 16B37 Po; 16B3C So; 16B40 Lm; 16B44 Po;
16B45 So; 16B46 Cn; 16B50 Nd; 16B5A Cn; 16B5B No; 16B62 Cn; 16B63 Lo; 16B78 Cn; 16B7D Lo;
16B90 Cn; 16E40 Lu; 16E60 Ll; 16E80 No; 16E97 Po; 16E9B Cn; 16F00 Lo; 16F4B Cn; 16F4F Mn;
16F50 Lo; 16F51 Mc; 16F88 Cn; 16F8F Mn; 16F93 Lm; 16FA0 Cn; 16FE0 Lm; 16FE2 Po; 16FE3 Lm;
16FE4 Mn; 16FE5 Cn; 16FF0 Mc; 16FF2 Cn; 17000 Lo; 187F8 Cn; 18800 Lo; 18CD6 Cn; 18D00 Lo;
18D09 Cn; 1AFF0 Lm; 1AFF4 Cn; 1AFF5 Lm; 1AFFC Cn; 1AFFD Lm; 1AFFF Cn; 1B000 Lo; 1B123 Cn;
1B132 Lo; 1B133 Cn; 1B150 Lo; 1B153 Cn; 1B155 Lo; 1B156 Cn; 1B164 Lo; 1B168 Cn; 1B170 Lo;
1B2FC Cn; 1BC00 Lo; 1BC6B Cn; 1BC70 Lo; 1BC7D Cn; 1BC80 Lo; 1BC89 Cn; 1BC90 Lo; 1BC9A Cn;
1BC9C So; 1BC9D Mn; 1BC9F Po; 1BCA0 Cf; 1BCA4 Cn; 1CF00 Mn; 1CF2E Cn; 1CF30 Mn; 1CF47 Cn;
1CF50 So; 1CFC4 Cn; 1D000 So; 1D0F6 Cn; 1D100 So; 1D127 Cn; 1D129 So; 1D165 Mc; 1D167 Mn;
1D16A So; 1D16D Mc; 1D173 Cf; 1D17B Mn; 1D183 So; 1D185 Mn; 1D18C So; 1D1AA Mn; 1D1AE So;
1D1EB Cn; 1D200 So; 1D242 Mn; 1D245 So; 1D246 Cn; 1D2C0 No; 1D2D4 Cn; 1D2E0 No; 1D2F4 Cn;
1D300 So; 1D357 Cn; 1D360 No; 1D379 Cn; 1D400 Lu; 1D41A Ll; 1D434 Lu; 1D44E Ll; 1D455 Cn;
1D456 Ll; 1D468 Lu; 1D482 Ll; 1D49C Lu Cn; 1D49F Lu; 1D4A0 Cn; 1D4A2 Lu; 1D4A3 Cn; 1D4A5 Lu;
1D4A7 Cn; 1D4A9 Lu; 1D4AD Cn; 1D4AE Lu; 1D4B6 Ll; 1D4BA Cn Ll; 1D4BE Ll; 1D4C4 Cn; 1D4C5 Ll;
1D4D0 Lu; 1D4EA Ll; 1D504 Lu; 1D506 Cn; 1D507 Lu; 1D50B Cn; 1D50D Lu; 1D515 Cn; 1D516 Lu;
1D51D Cn; 1D51E Ll; 1D538 Lu; 1D53A Cn; 1D53B Lu; 1D53F Cn; 1D540 Lu; 1D545 Cn Lu; 1D548 Cn;
1D54A Lu; 1D551 Cn; 1D552 Ll; 1D56C Lu; 1D586 Ll; 1D5A0 Lu; 1D5BA Ll; 1D5D4 Lu; 1D5EE Ll;
1D608 Lu; 1D622 Ll; 1D63C Lu; 1D656 Ll; 1D670 Lu; 1D68A Ll; 1D6A6 Cn; 1D6A8 Lu; 1D6C1 Sm;
1D6C2 Ll; 1D6DB Sm; 1D6DC Ll; 1D6E2 Lu; 1D6FB Sm; 1D6FC Ll; 1D715 Sm; 1D716 Ll; 1D71C Lu;
1D735 Sm; 1D736 Ll; 1D74F Sm; 1D750 Ll; 1D756 Lu; 1D76F Sm; 1D770 Ll; 1D789 Sm; 1D78A Ll;
1D790 Lu; 1D7A9 Sm; 1D7AA Ll; 1D7C3 Sm; 1D7C4 Ll; 1D7CA Lu; 1D7CB Ll; 1D7CC Cn; 1D7CE Nd;
1D800 So; 1DA00 Mn; 1DA37 So; 1DA3B Mn; 1DA6D So; 1DA75 Mn; 1DA76 So; 1DA84 Mn; 1DA85 So;
1DA87 Po; 1DA8C Cn; 1DA9B Mn; 1DAA0 Cn; 1DAA1 Mn; 1DAB0 Cn; 1DF00 Ll; 1DF0A Lo; 1DF0B Ll;
1DF1F Cn; 1DF25 Ll; 1DF2B Cn; 1E000 Mn; 1E007 Cn; 1E008 Mn; 1E019 Cn; 1E01B Mn; 1E022 Cn;
1E023 Mn; 1E025 Cn; 1E026 Mn; 1E02B Cn; 1E030 Lm; 1E06E Cn; 1E08F Mn; 1E090 Cn; 1E100 Lo;
1E12D Cn; 1E130 Mn; 1E137 Lm; 1E13E Cn; 1E140 Nd; 1E14A Cn; 1E14E Lo; 1E14F So; 1E150 Cn;
1E290 Lo; 1E2AE Mn; 1E2AF Cn; 1E2C0 Lo; 1E2EC Mn; 1E2F0 Nd; 1E2FA Cn; 1E2FF Sc; 1E300 Cn;
1E4D0 Lo; 1E4EB Lm; 1E4EC Mn; 1E4F0 Nd; 1E4FA Cn; 1E7E0 Lo; 1E7E7 Cn; 1E7E8 Lo; 1E7EC Cn;
1E7ED Lo; 1E7EF Cn; 1E7F0 Lo; 1E7FF Cn; 1E800 Lo; 1E8C5 Cn; 1E8C7 No; 1E8D0 Mn; 1E8D7 Cn;
1E900 Lu; 1E922 Ll; 1E944 Mn; 1E94B Lm; 1E94C Cn; 1E950 Nd; 1E95A Cn; 1E95E Po; 1E960 Cn;
1EC71 No; 1ECAC So; 1ECAD No; 1ECB0 Sc; 1ECB1 No; 1ECB5 Cn; 1ED01 No; 1ED2E So; 1ED2F No;
1ED3E Cn; 1EE00 Lo; 1EE04 Cn; 1EE05 Lo; 1EE20 Cn; 1EE21 Lo; 1EE23 Cn Lo; 1EE26 Cn Lo; 1EE2A Lo;
1EE33 Cn; 1EE34 Lo; 1EE38 Cn Lo; 1EE3D Cn; 1EE42 Lo; 1EE43 Cn; 1EE47 Lo Cn; 1EE4E Lo; 1EE50 Cn;
1EE51 Lo; 1EE53 Cn Lo; 1EE56 Cn Lo; 1EE62 Lo Cn; 1EE66 Cn; 1EE67 Lo; 1EE6B Cn; 1EE6C Lo;
1EE73 Cn; 1EE74 Lo; 1EE78 Cn; 1EE79 Lo; 1EE7D Cn Lo; 1EE81 Lo; 1EE8A Cn; 1EE8B Lo; 1EE9C Cn;
1EEA1 Lo; 1EEA4 Cn; 1EEA5 Lo; 1EEAA Cn; 1EEAB Lo; 1EEBC Cn; 1EEF0 Sm; 1EEF2 Cn; 1F000 So;
1F02C Cn; 1F030 So; 1F094 Cn; 1F0A0 So; 1F0AF Cn; 1F0B1 So; 1F0C0 Cn; 1F0C1 So; 1F0D0 Cn;
1F0D1 So; 1F0F6 Cn; 1F100 No; 1F10D So; 1F1AE Cn; 1F1E6 So; 1F203 Cn; 1F210 So; 1F23C Cn;
1F240 So; 1F249 Cn; 1F250 So; 1F252 Cn; 1F260 So; 1F266 Cn; 1F300 So; 1F3FB Sk; 1F400 So;
1F6D8 Cn; 1F6DC So; 1F6ED Cn; 1F6F0 So; 1F6FD Cn; 1F700 So; 1F777 Cn; 1F77B So; 1F7DA Cn;
1F7E0 So; 1F7EC Cn; 1F7F0 So; 1F7F1 Cn; 1F800 So; 1F80C Cn; 1F810 So; 1F848 Cn; 1F850 So;
1F85A Cn; 1F860 So; 1F888 Cn; 1F890 So; 1F8AE Cn; 1F8B0 So; 1F8B2 Cn; 1F900 So; 1FA54 Cn;
1FA60 So; 1FA6E Cn; 1FA70 So; 1FA7D Cn; 1FA80 So; 1FA89 Cn; 1FA90 So; 1FABE Cn; 1FABF So;
1FAC6 Cn; 1FACE So; 1FADC Cn; 1FAE0 So; 1FAE9 Cn; 1FAF0 So; 1FAF9 Cn; 1FB00 So; 1FB93 Cn;
1FB94 So; 1FBCB Cn; 1FBF0 Nd; 1FBFA Cn; 20000 Lo; 2A6E0 Cn; 2A700 Lo; 2B73A Cn; 2B740 Lo;
2B81E Cn; 2B820 Lo; 2CEA2 Cn; 2CEB0 Lo; 2EBE1 Cn; 2EBF0 Lo; 2EE5E Cn; 2F800 Lo; 2FA1E Cn;
30000 Lo; 3134B Cn; 31350 Lo; 323B0 Cn; E0001 Cf; E0002 Cn; E0020 Cf; E0080 Cn; E0100 Mn;
E01F0 Cn; F0000 Co; FFFFE Cn; 100000 Co; 10FFFE Cn;
"

/-- Value of a hexadecimal digit. -/
def hexValue (c : Char) : Nat :=
  if c.isDigit then c.toNat - '0'.toNat else c.toNat - 'A'.toNat + 10

/-- One line of the table. -/
structure Block where
  first : Nat
  even : Category
  odd : Category

/-- Read one line of the table. -/
def readBlock (line : String) : Option Block :=
  match (line.split (fun c => c = ' ' || c = '\n')).toList.filter (fun w => !w.isEmpty) with
  | [first, even] => do
      let category ← ofAbbreviation? even.toString
      pure ⟨first.toString.toList.foldl (fun n c => 16 * n + hexValue c) 0, category, category⟩
  | [first, even, odd] => do
      let even ← ofAbbreviation? even.toString
      let odd ← ofAbbreviation? odd.toString
      pure ⟨first.toString.toList.foldl (fun n c => 16 * n + hexValue c) 0, even, odd⟩
  | _ => none

/-- The table, ready for look-up. -/
def table : Array Block :=
  ((changes.split (· = ';')).toList.filterMap fun line => readBlock line.toString).toArray

/-- Index of the last block that starts at or before a code point, by bisection. -/
def bisect (point : Nat) : Nat → Nat → Nat → Nat
  | 0, low, _ => low
  | fuel + 1, low, high =>
      if high ≤ low + 1 then low
      else
        let middle := (low + high) / 2
        match table[middle]? with
        | some block =>
            if block.first ≤ point then bisect point fuel middle high
            else bisect point fuel low middle
        | none => low

/-- The category of a character. -/
def of (c : Char) : Category :=
  match table[bisect c.toNat 32 0 table.size]? with
  | some block => if (c.toNat - block.first) % 2 = 0 then block.even else block.odd
  | none => unassigned

end Category

end Unicode
end Pushdown
