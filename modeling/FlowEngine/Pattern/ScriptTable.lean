/-!
# Scripts

The scripts of characters, and the scripts that a character is used in. Entries are written as those
of binary properties.
-/

namespace FlowEngine.Pattern

/-- The script of a character, in the order of names. -/
def scriptTable : List (String × String) := [
  ("adlam adlm", "125184+76 4+10 4+2"),
  ("ahom", "71424+27 2+15 4+23"),
  ("anatolianhieroglyphs hluw", "82944+583"),
  ("arab arabic",
    "1536+5 1+6 1+14 1+3 1+32 1+10 11+26 1+108 1+34 80+48 240+31 1+2 5+75 1+29 62032+115 " ++
    "16+363 2+80 2+54 7 32+16 112+5 1+135 3939+31 67+3 55+4 57088+4 1+27 1+2 1 2 1+10 1+4 1 1 " ++
    "6 4 1 1 1+3 1+2 1 2 1 1 1 1 1+2 1 2+4 1+7 1+4 1+4 1 1+10 1+17 5+3 1+5 1+17 52+2"),
  ("armenian armn", "1329+38 2+50 2+3 62851+5"),
  ("avestan avst", "68352+54 3+7"),
  ("bali balinese", "6912+77 1+50"),
  ("bamu bamum", "42656+88 49416+569"),
  ("bass bassavah", "92880+30 2+6"),
  ("batak batk", "7104+52 8+4"),
  ("beng bengali", "2432+4 1+8 2+2 2+22 1+7 1 3+4 2+9 2+2 2+4 8 4+2 1+5 2+25"),
  ("bhaiksuki bhks", "72704+9 1+45 1+14 10+29"),
  ("bopo bopomofo", "746+2 11801+43 112+32"),
  ("brah brahmi", "69632+78 4+36 9"),
  ("brai braille", "10240+256"),
  ("bugi buginese", "6656+28 2+2"),
  ("buhd buhid", "5952+20"),
  ("canadianaboriginal cans", "5120+640 560+70 65978+16"),
  ("cari carian", "66208+49"),
  ("aghb caucasianalbanian", "66864+52 11"),
  ("cakm chakma", "69888+53 1+18"),
  ("cham", "43520+55 9+14 2+10 2+4"),
  ("cher cherokee", "5024+86 2+6 38770+80"),
  ("chorasmian chrs", "69552+28"),
  ("common zyyy",
    "0+65 26+6 26+47 1+15 1+5 23 31 449+39 5+5 2+20 116 9 6 1 637 6 14 3 32 156 516 129+2 " ++
    "1241 405+4 290 1519+3 71+2 203+2 1 1229 13 7+4 1+6 1+3 2 773+12 2+87 1+11 3+11 1+15 " ++
    "17+33 63+38 1+3 2+6 1+27 1+17 41+3 4+666 22+11 21+928 256+628 2+32 1+105 512+94 402+21 1 " ++
    "1+25 15+8 4+4 91+2 3 90+2 147+16 32+38 9 48+64 31+81 47 88+168 6592+64 22784+34 102+3 " ++
    "165+10 244 160 395 14+2 20946+2 208+10 22+35 1+19 1+4 147 1+32 26+6 26+11 10 45+2 64+7 " ++
    "1+7 10+5 258+3 4+45 3+9 80+13 51+45 228+27 47524+4 3932+250 6+436 156+116 60+246 10+39 " ++
    "2+62 3+17 8+2 7+30 4+61 213+20 12+20 12+87 9+25 135+85 1+71 1+2 2 2+2 2+4 1+12 1 1+7 " ++
    "1+65 1+4 2+8 1+7 1+28 1+4 1+5 1 3+7 1+340 2+292 2+50 5233+68 76+61 706+44 4+100 12+15 " ++
    "2+15 1+15 1+37 10+174 56+26 1+2 13+44 4+9 7+2 14+6 154+984 4+17 3+13 3+119 4+95 6+12 4 " ++
    "15+12 4+56 8+10 6+40 8+30 2+12 4+2 62+340 12+14 2+13 3+10 5+56 7+15 2+11 6+9 7+147 1+102 " ++
    "787463 30+96"),
  ("copt coptic qaac", "994+14 10384+116 5+7"),
  ("cuneiform xsux", "73728+922 102+111 1+5 11+196"),
  ("cprt cypriot", "67584+6 2 1+44 1+2 3 2"),
  ("cpmn cyprominoan", "77712+99"),
  ("cyrillic cyrl", "1024+133 2+169 5968+11 160 76 4199+32 30784+96 22414+2 57856+62 33"),
  ("deseret dsrt", "66560+80"),
  ("deva devanagari", "2304+81 4+15 2+26 40800+32 29184+10"),
  ("diak divesakuru", "71936+7 2 2+8 1+2 1+30 1+2 2+12 9+10"),
  ("dogr dogra", "71680+60"),
  ("dupl duployan", "113664+107 5+13 3+9 7+10 2+4"),
  ("egyp egyptianhieroglyphs", "77824+1110 10+3995"),
  ("elba elbasan", "66816+40"),
  ("elym elymaic", "69600+23"),
  ("ethi ethiopic",
    "4608+73 1+4 2+7 1 1+4 2+41 1+4 2+33 1+4 2+7 1 1+4 2+15 1+57 1+4 2+67 2+32 3+26 6630+23 " ++
    "9+7 1+7 1+7 1+7 1+7 1+7 1+7 1+7 32034+6 2+6 2+6 9+7 1+7 81073+7 1+4 1+2 1+15"),
  ("gara garay", "68928+38 3+29 8+2"),
  ("geor georgian", "4256+38 1 5 2+43 1+4 2960+43 2+3 4160+38 1 5"),
  ("glag glagolitic", "11264+96 111520+7 1+17 2+7 1+2 1+5"),
  ("goth gothic", "66352+27"),
  ("gran grantha", "70400+4 1+8 2+2 2+22 1+7 1+2 1+5 2+9 2+2 2+3 2 6 5+7 2+7 3+5"),
  ("greek grek",
    "880+4 1+3 2+4 1 4 1 1+3 1 1+20 1+63 14+16 6438+5 50+5 4+5 84 320+22 2+6 2+38 2+6 2+8 1 1 " ++
    "1 1+31 2+53 1+15 1+14 2+6 1+19 2+3 1+9 295 35390 21978+79 17 53343+70"),
  ("gujarati gujr", "2689+3 1+9 1+3 1+22 1+7 1+2 1+5 2+10 1+3 1+3 2 15+4 2+12 7+7"),
  ("gong gunjalagondi", "73056+6 1+2 1+37 1+2 1+6 7+10"),
  ("gurmukhi guru", "2561+3 1+6 4+2 2+22 1+7 1+2 1+2 1+2 2 1+5 4+2 2+3 3 7+4 1 7+17"),
  ("gukh gurungkhema", "90368+58"),
  ("han hani",
    "11904+26 1+89 12+214 47 1 25+9 14+4 964+6592 64+20992 22784+366 2+106 29960+2 12+2 " ++
    "36878+42720 32+4154 6+222 2+5762 14+7473 15+622 2466+542 1506+4939 5+4192"),
  ("hang hangul",
    "4352+256 7726+2 257+94 113+31 65+31 30433+29 643+11172 12+23 4+49 10148+31 3+6 2+6 2+6 " ++
    "2+3"),
  ("hanifirohingya rohg", "68864+40 8+10"),
  ("hano hanunoo", "5920+21"),
  ("hatr hatran", "67808+19 1+2 5+5"),
  ("hebr hebrew", "1425+55 8+27 4+6 62760+26 1+5 1 1+2 1+2 1+10"),
  ("hira hiragana", "12353+86 6+3 98145+287 18 29+3 16557"),
  ("armi imperialaramaic", "67648+22 1+9"),
  ("inherited qaai zinh",
    "768+112 277+2 452+11 26 736+4 4443+31 513+3 1+13 1+7 4 6 3+2 198+64 524+2 194+33 3897+4 " ++
    "107+2 52581+16 16+14 975 226 4186 48068+46 2+23 544+3 17+8 2+7 30+4 798546+240"),
  ("inscriptionalpahlavi phli", "68448+19 5+8"),
  ("inscriptionalparthian prti", "68416+22 2+8"),
  ("java javanese", "43392+78 2+10 4+2"),
  ("kaithi kthi", "69760+67 10"),
  ("kannada knda", "3200+13 1+3 1+23 1+10 1+5 2+9 1+3 1+4 7+2 6+2 1+4 2+10 1+3"),
  ("kana katakana",
    "12449+90 2+3 240+16 208+47 1+88 52238+10 1+45 45138+4 1+7 1+2 1 287+3 50 14+4"),
  ("kawi", "73472+17 1+41 3+29"),
  ("kali kayahli", "43264+46 1"),
  ("khar kharoshthi", "68096+4 1+2 5+8 1+3 1+29 2+3 4+10 7+9"),
  ("khitansmallscript kits", "94180 6939+470 41"),
  ("khmer khmr", "6016+94 2+10 6+10 486+32"),
  ("khoj khojki", "70144+18 1+47"),
  ("khudawadi sind", "70320+59 5+10"),
  ("kiratrai krai", "93504+58"),
  ("lao laoo", "3713+2 1 1+5 1+24 1 1+23 2+5 1 1+7 1+10 2+4"),
  ("latin latn",
    "65+26 6+26 47 15 5+23 1+31 1+449 39+5 6683+38 6+49 5+4 5+13 1+70 65+256 369 13 16+13 " ++
    "141+2 6 27 17+41 2775+32 31394+102 3+67 2+2 1 1+8 21+14 816+43 1+9 1+4 20374+7 1050+26 " ++
    "6+26 2085+6 1+42 1+9 55109+31 6+6"),
  ("lepc lepcha", "7168+56 3+15 3+3"),
  ("limb limbu", "6400+31 1+12 4+12 4 3+12"),
  ("lina lineara", "67072+311 9+22 10+8"),
  ("linb linearb", "65536+12 1+26 1+19 1+2 1+15 2+14 34+123"),
  ("lisu", "42192+48 31408"),
  ("lyci lycian", "66176+29"),
  ("lydi lydian", "67872+26 5"),
  ("mahajani mahj", "69968+39"),
  ("maka makasar", "73440+25"),
  ("malayalam mlym", "3328+13 1+3 1+51 1+3 1+6 4+16 2+26"),
  ("mand mandaic", "2112+28 2"),
  ("mani manichaean", "68288+39 4+12"),
  ("marc marchen", "72816+32 2+22 1+14"),
  ("gonm masaramgondi", "72960+7 1+2 1+44 3 1+2 1+9 8+10"),
  ("medefaidrin medf", "93760+91"),
  ("meeteimayek mtei", "43744+23 201+46 2+10"),
  ("mend mendekikakui", "124928+197 2+16"),
  ("merc meroiticcursive", "68000+24 4+20 2+46"),
  ("mero meroitichieroglyphs", "67968+32"),
  ("miao plrd", "93952+75 4+57 7+17"),
  ("modi", "71168+69 11+10"),
  ("mong mongolian", "6144+2 2 1+20 6+89 7+43 64949+13"),
  ("mro mroo", "92736+31 1+10 4+2"),
  ("mult multani", "70272+7 1 1+4 1+15 1+11"),
  ("myanmar mymr", "4096+160 39232+31 97+32 27728+20"),
  ("nabataean nbat", "67712+31 8+9"),
  ("nagm nagmundari", "124112+42"),
  ("nand nandinagari", "72096+8 2+46 2+11"),
  ("newtailue talu", "6528+44 4+26 6+11 3+2"),
  ("newa", "70656+92 1+5"),
  ("nko nkoo", "1984+59 2+3"),
  ("nshu nushu", "94177 16782+396"),
  ("hmnp nyiakengpuachuehmong", "123136+45 3+14 2+10 4+2"),
  ("ogam ogham", "5760+29"),
  ("olchiki olck", "7248+48"),
  ("olonal onao", "124368+43 4"),
  ("hung oldhungarian", "68736+51 13+51 7+6"),
  ("ital olditalic", "66304+36 9+3"),
  ("narb oldnortharabian", "68224+32"),
  ("oldpermic perm", "66384+43"),
  ("oldpersian xpeo", "66464+36 4+14"),
  ("oldsogdian sogo", "69376+40"),
  ("oldsoutharabian sarb", "68192+32"),
  ("oldturkic orkh", "68608+73"),
  ("olduyghur ougr", "69488+26"),
  ("oriya orya", "2817+3 1+8 2+2 2+22 1+7 1+2 1+5 2+9 2+2 2+3 7+3 4+2 1+5 2+18"),
  ("osage osge", "66736+36 4+36"),
  ("osma osmanya", "66688+30 2+10"),
  ("hmng pahawhhmong", "92928+70 10+10 1+7 1+21 5+19"),
  ("palm palmyrene", "67680+32"),
  ("pauc paucinhau", "72384+57"),
  ("phag phagspa", "43072+56"),
  ("phnx phoenician", "67840+28 3"),
  ("phlp psalterpahlavi", "68480+18 7+4 12+7"),
  ("rejang rjng", "43312+36 11"),
  ("runic runr", "5792+75 3+11"),
  ("samaritan samr", "2048+46 2+15"),
  ("saur saurashtra", "43136+70 8+12"),
  ("sharada shrd", "70016+96"),
  ("shavian shaw", "66640+48"),
  ("sidd siddham", "71040+54 2+38"),
  ("sgnw signwriting", "120832+652 15+5 1+15"),
  ("sinh sinhala", "3457+3 1+18 3+24 1+9 1 2+7 3 4+6 1 1+8 6+10 2+3 66540+20"),
  ("sogd sogdian", "69424+42"),
  ("sora sorasompeng", "69840+25 7+10"),
  ("soyo soyombo", "72272+83"),
  ("sund sundanese", "7040+64 256+8"),
  ("sunu sunuwar", "72640+34 14+10"),
  ("sylo sylotinagri", "43008+45"),
  ("syrc syriac", "1792+14 1+60 2+3 272+11"),
  ("tagalog tglg", "5888+22 9"),
  ("tagb tagbanwa", "5984+13 1+3 1+2"),
  ("taile tale", "6480+30 2+5"),
  ("lana taitham", "6688+63 1+29 2+11 6+10 6+14"),
  ("taiviet tavt", "43648+67 24+5"),
  ("takr takri", "71296+58 6+10"),
  ("tamil taml", "2946+2 1+6 3+3 1+4 3+2 1 1+2 3+2 3+3 3+12 4+5 3+3 1+4 2 6 14+21 70597+50 13"),
  ("tangsa tnsa", "92784+79 1+10"),
  ("tang tangut", "94176 31+6136 8+768 512+9"),
  ("telu telugu", "3072+13 1+3 1+23 1+16 2+9 1+3 1+4 7+2 1+3 2 2+4 2+10 7+9"),
  ("thaa thaana", "1920+50"),
  ("thai", "3585+58 5+28"),
  ("tibetan tibt", "3840+72 1+36 4+39 1+36 1+15 1+7 4+2"),
  ("tfng tifinagh", "11568+56 7+2 14"),
  ("tirh tirhuta", "70784+72 8+10"),
  ("todhri todr", "67008+52"),
  ("toto", "123536+31"),
  ("tulutigalari tutg", "70528+10 1 2 1+38 1+10 1 2 1+4 1+10 1+2 8+2"),
  ("ugar ugaritic", "66432+30 1"),
  ("vai vaii", "42240+300"),
  ("vith vithkuqi", "66928+11 1+15 1+7 1+2 1+11 1+15 1+7 1+2"),
  ("wancho wcho", "123584+58 5"),
  ("wara warangciti", "71840+83 12"),
  ("yezi yezidi", "69248+42 1+3 2+2"),
  ("yi yiii", "40960+1165 3+55"),
  ("zanabazarsquare zanb", "72192+72")]

/-- The scripts that a character is used in, in the order of names. -/
def scriptExtensionTable : List (String × String) := [
  ("adlam adlm", "1567 32 6670 3569 113342+76 4+10 4+2"),
  ("ahom", "71424+27 2+15 4+23"),
  ("anatolianhieroglyphs hluw", "82944+583"),
  ("arab arabic",
    "1536+5 1+215 1+34 80+48 240+31 1+2 5+75 1+29 5967 3569 52494+115 16+445 2+54 7 32+16 " ++
    "112+5 1+135 995+28 2916+31 67+3 55+4 57088+4 1+27 1+2 1 2 1+10 1+4 1 1 6 4 1 1 1+3 1+2 1 " ++
    "2 1 1 1 1 1+2 1 2+4 1+7 1+4 1+4 1 1+10 1+17 5+3 1+5 1+17 52+2"),
  ("armenian armn", "776 552+38 2+50 2+3 62851+5"),
  ("avestan avst", "183 11640+2 56526+54 3+7"),
  ("bali balinese", "6912+77 1+50"),
  ("bamu bamum", "42656+88 49416+569"),
  ("bass bassavah", "92880+30 2+6"),
  ("batak batk", "7104+52 8+4"),
  ("beng bengali",
    "700 1684+2 17+2 26+4 1+8 2+2 2+22 1+7 1 3+4 2+9 2+2 2+4 8 4+2 1+5 2+25 4817 1 2+2 1 8 8 " ++
    "2 4 2+3 35833"),
  ("bhaiksuki bhks", "72704+9 1+45 1+14 10+29"),
  ("bopo bopomofo", "711 1+3 13 16+2 11541+3 4+10 1+13 10+4 2 6 195 9+43 112+32 52357+2 282+5"),
  ("brah brahmi", "69632+78 4+36 9"),
  ("brai braille", "10240+256"),
  ("bugi buginese", "6656+28 2+2 36783"),
  ("buhd buhid", "5941+2 9+20"),
  ("canadianaboriginal cans", "5120+640 560+70 65978+16"),
  ("cari carian", "183 8098 2 3539 54382+49"),
  ("aghb caucasianalbanian", "772 44 44 66001+52 11"),
  ("cakm chakma", "2534+10 1616+10 65718+53 1+18"),
  ("cham", "43520+55 9+14 2+10 2+4"),
  ("cher cherokee", "768+3 1 6+2 22+2 11+2 4206+86 2+6 38770+80"),
  ("chorasmian chrs", "69552+28"),
  ("common zyyy",
    "0+65 26+6 26+47 1+12 1+2 1+5 23 31 449+3 1+10 1 3 1+9 1 1+6 5+5 2+20 126 6 1 637 215 516 " ++
    "1372 405+4 4135+12 2+33 1+31 1+10 1+2 1+7 1+11 3+11 1+15 17+33 63+38 1+3 2+6 1+27 1+17 " ++
    "41+3 4+666 22+11 21+928 256+628 2+32 1+105 512+23 1+24 2+10 1+4 1 1+26 418 3 13 13 21 " ++
    "529+24 31 49+15 12+4 161+10 5+96 31 6592+64 22792+26 102+3 976 14+2 21156+10 22+21 2+12 " ++
    "1+19 1+4 147 1+32 26+6 26+6 127+7 1+7 10+5 402+13 51+45 51715+250 6+436 156+116 60+246 " ++
    "10+39 2+62 3+17 8+2 7+30 4+61 213+20 12+20 12+87 27+7 135+85 1+71 1+2 2 2+2 2+4 1+12 1 " ++
    "1+7 1+65 1+4 2+8 1+7 1+28 1+4 1+5 1 3+7 1+340 2+292 2+50 5233+68 76+61 706+44 4+100 " ++
    "12+15 2+15 1+15 1+37 10+174 56+26 1+2 13+44 4+9 23+6 154+984 4+17 3+13 3+119 4+95 6+12 4 " ++
    "15+12 4+56 8+10 6+40 8+30 2+12 4+2 62+340 12+14 2+13 3+10 5+56 7+15 2+11 6+9 7+147 1+102 " ++
    "787463 30+96"),
  ("copt coptic qaac", "183 584 3+2 1 108+2 108+14 10384+116 5+7 279 54472+28"),
  ("cuneiform xsux", "73728+922 102+111 1+5 11+196"),
  ("cprt cypriot", "65792+3 4+45 3+9 1728+6 2 1+44 1+2 3 2"),
  ("cpmn cyprominoan", "65792+2 11918+99"),
  ("cyrillic cyrl",
    "700 67+3 1 1 1 2 5 238+304 5968+11 160 76 127 4071+32 67 30716+96 22414+2 57856+62 33"),
  ("deseret dsrt", "66560+80"),
  ("deva devanagari", "700 1603+83 2+43 4944+39 1+2 1014 34623+10 166+32 29184+10"),
  ("diak divesakuru", "71936+7 2 2+8 1+2 1+30 1+2 2+12 9+10"),
  ("dogr dogra", "2404+12 40640+10 28614+60"),
  ("dupl duployan", "183 591+2 1 24+2 11031 101827+107 5+13 3+9 7+10 2+8"),
  ("egyp egyptianhieroglyphs", "77824+1110 10+3995"),
  ("elba elbasan", "183 589 66042+40"),
  ("elym elymaic", "69600+23"),
  ("ethi ethiopic",
    "782 3825+73 1+4 2+7 1 1+4 2+41 1+4 2+33 1+4 2+7 1 1+4 2+15 1+57 1+4 2+67 2+32 3+26 " ++
    "6630+23 9+7 1+7 1+7 1+7 1+7 1+7 1+7 1+7 32034+6 2+6 2+6 9+7 1+7 81073+7 1+4 1+2 1+15"),
  ("gara garay", "1548 14 3 67360+38 3+29 8+2"),
  ("geor georgian", "183 1233 2838+38 1 5 2+48 2960+43 2+3 922 3237+38 1 5 259"),
  ("glag glagolitic", "183 587 1 382 2 257 2929 3934 2981+96 483 30763 80272+7 1+17 2+7 1+2 1+5"),
  ("goth gothic", "183 588+2 2 40 65534+27"),
  ("gran grantha",
    "2385+2 17+2 640+14 4316 1+2 30+3 3+2 1014 61967+4 1+8 2+2 2+22 1+7 1+2 1+5 1+10 2+2 2+3 " ++
    "2 6 5+7 2+7 3+5 3163+2 1"),
  ("greek grek",
    "183 584+2 2 1 1 10 46 2 42+8 2+4 1 4 1 1+3 1 1+20 1+63 14+16 6438+5 50+5 4+5 84+3 318+22 " ++
    "2+6 2+38 2+6 2+8 1 1 1 1+31 2+53 1+15 1+14 2+6 1+19 2+3 1+9 94 200 35390 21978+79 17 " ++
    "53343+70"),
  ("gujarati gujr",
    "2385+2 17+2 283+3 1+9 1+3 1+22 1+7 1+2 1+5 2+10 1+3 1+3 2 15+4 2+12 7+7 40240+10"),
  ("gong gunjalagondi", "183 2220+2 70650+6 1+2 1+37 1+2 1+6 7+10"),
  ("gurmukhi guru",
    "2385+2 17+2 155+3 1+6 4+2 2+22 1+7 1+2 1+2 1+2 2 1+5 4+2 2+3 3 7+4 1 7+17 40377+10"),
  ("gukh gurungkhema", "2405 87962+58"),
  ("han hani",
    "183 11720+26 1+89 12+214 26+16 1+3 1+13 1+13 1+13 2 6+9 187 148+16 32+38 9 48+40 56+49 " ++
    "15+12 51 88+25 10+5 96+31 1+6592 64+20992 1792+8 20984+366 2+106 875+2 282+5 28796+2 " ++
    "12+2 25454+18 7902+2 3502+42720 32+4154 6+222 2+5762 14+7473 15+622 2466+542 1506+4939 " ++
    "5+4192"),
  ("hang hangul",
    "4352+256 7681+3 4+10 1+13 14+3 6 195 53+94 113+31 65+31 30433+29 643+11172 12+23 4+49 " ++
    "9801+2 282+5 58+31 3+6 2+6 2+6 2+3"),
  ("hanifirohingya rohg", "1548 14 3 32 147 67115+40 8+10"),
  ("hano hanunoo", "5920+23"),
  ("hatr hatran", "67808+19 1+2 5+5"),
  ("hebr hebrew", "775+2 648+55 8+27 4+6 62760+26 1+5 1 1+2 1+2 1+10"),
  ("hira hiragana",
    "12289+3 4+10 1+13 16+6 1 4+2 3+86 2+8 90+2 52552+2 282+5 10 45+2 45153+287 18 29+3 16557"),
  ("armi imperialaramaic", "67648+22 1+9"),
  ("inherited qaai zinh",
    "783 2 1+12 1+2 3+7 2 2+16 1+2 1+18 1+5 1+4 1520+2 4443+31 755+54 1 1+5 524+2 194+32 " ++
    "56592+16 16+14 975 52482+46 2+23 544+3 17+8 2+7 30+4 798546+240"),
  ("inscriptionalpahlavi phli", "68448+19 5+8"),
  ("inscriptionalparthian prti", "68416+22 2+8"),
  ("java javanese", "43392+78 1+11 4+2"),
  ("kaithi kthi", "2406+10 9409 31230+10 26694+67 10"),
  ("kannada knda",
    "2385+2 17+2 794+13 1+3 1+23 1+10 1+5 2+9 1+3 1+4 7+2 6+2 1+4 2+10 1+3 4060 1+2 6 23 1 " ++
    "35643+6"),
  ("kana katakana",
    "773 29 11485+3 4+10 1+13 16+6 1 4+2 91+4 3+96 240+16 208+47 1+88 51949+2 282+63 45136+4 " ++
    "1+7 1+2 1 287+3 50 14+4"),
  ("kawi", "73472+17 1+41 3+29"),
  ("kali kayahli", "43264+48"),
  ("khar kharoshthi", "68096+4 1+2 5+8 1+3 1+29 2+3 4+10 7+9"),
  ("khitansmallscript kits", "94180 6939+470 41"),
  ("khmer khmr", "6016+94 2+10 6+10 486+32"),
  ("khoj khojki", "2790+10 40256+10 27078+18 1+47"),
  ("khudawadi sind", "2404+2 40650+10 27254+59 5+10"),
  ("kiratrai krai", "93504+58"),
  ("lao laoo", "3713+2 1 1+5 1+24 1 1+23 2+5 1 1+7 1+10 2+4"),
  ("latin latn",
    "65+26 6+26 47 12 2 5+23 1+31 1+449 3 10 1+3 1 9 1 6+5 27+15 1+2 1 12 2+3 7+2 1+2 38 5 " ++
    "4+13 277+2 1226+2 1960 3076+38 6+49 5+4 5+13 1+70 57 7+256 303 65 13 16+13 83 57+2 6 27 " ++
    "17+41 2775+32 407 30952+8 26+102 3+67 2+2 1 1+8 21+14 302 513+43 1+9 1+4 20374+7 1050+26 " ++
    "6+26 2085+6 1+42 1+9 55109+31 6+6"),
  ("lepc lepcha", "7168+56 3+15 3+3"),
  ("limb limbu", "2405 3994+31 1+12 4+12 4 3+12"),
  ("lina lineara", "65799+45 1228+311 9+22 10+8"),
  ("linb linearb", "65536+12 1+26 1+19 1+2 1+15 2+14 34+123 5+3 4+45 3+9"),
  ("lisu", "700 16 11580+2 29892+48 31408"),
  ("lyci lycian", "8282 57893+29"),
  ("lydi lydian", "183 11641 56046+26 5"),
  ("mahajani mahj", "183 2220+12 40640+10 26902+39"),
  ("maka makasar", "73440+25"),
  ("malayalam mlym", "2385+2 17+2 922+13 1+3 1+51 1+3 1+6 4+16 2+26 3930 23 35645+3"),
  ("mand mandaic", "1600 511+28 2"),
  ("mani manichaean", "1600 66687+39 4+12"),
  ("marc marchen", "72816+32 2+22 1+14"),
  ("gonm masaramgondi", "2404+2 70554+7 1+2 1+44 3 1+2 1+9 8+10"),
  ("medefaidrin medf", "93760+91"),
  ("meeteimayek mtei", "43744+23 201+46 2+10"),
  ("mend mendekikakui", "124928+197 2+16"),
  ("merc meroiticcursive", "68000+24 4+20 2+46"),
  ("mero meroitichieroglyphs", "8285 59682+32"),
  ("miao plrd", "93952+75 4+57 7+17"),
  ("modi", "43056+10 28102+69 11+10"),
  ("mong mongolian", "6144+26 6+89 7+43 1924 4049+2 5+4 58964+13"),
  ("mro mroo", "92736+31 1+10 4+2"),
  ("mult multani", "2662+10 67600+7 1 1+4 1+15 1+11"),
  ("myanmar mymr", "4096+160 39054 177+31 97+32 27728+20"),
  ("nabataean nbat", "67712+31 8+9"),
  ("nagm nagmundari", "124112+42"),
  ("nand nandinagari", "2404+2 896+10 4089 8 7 35637+6 29034+8 2+46 2+11"),
  ("newtailue talu", "6528+44 4+26 6+11 3+2"),
  ("newa", "70656+92 1+5"),
  ("nko nkoo", "1548 14 3 416+59 2+3 62782+2"),
  ("nshu nushu", "94177 16782+396"),
  ("hmnp nyiakengpuachuehmong", "123136+45 3+14 2+10 4+2"),
  ("ogam ogham", "5760+29"),
  ("olchiki olck", "7248+48"),
  ("olonal onao", "2404+2 121962+43 4"),
  ("hung oldhungarian", "8282 2 3539 15 56894+51 13+51 7+6"),
  ("ital olditalic", "66304+36 9+3"),
  ("narb oldnortharabian", "68224+32"),
  ("oldpermic perm", "183 584 5+3 10 367 65228+43"),
  ("oldpersian xpeo", "66464+36 4+14"),
  ("oldsogdian sogo", "69376+40"),
  ("oldsoutharabian sarb", "68192+32"),
  ("oldturkic orkh", "8282 3541 56783+73"),
  ("olduyghur ougr", "1600 66737 1149+26"),
  ("oriya orya", "2385+2 17+2 411+3 1+8 2+2 2+22 1+7 1+2 1+5 2+9 2+2 2+3 7+3 4+2 1+5 2+18 4450 23"),
  ("osage osge", "769 2 6 76 65879+36 4+36"),
  ("osma osmanya", "66688+30 2+10"),
  ("hmng pahawhhmong", "92928+70 10+10 1+7 1+21 5+19"),
  ("palm palmyrene", "67680+32"),
  ("pauc paucinhau", "72384+57"),
  ("phag phagspa", "6146+2 1 2089 4050 30781+56"),
  ("phnx phoenician", "67840+28 3"),
  ("phlp psalterpahlavi", "1600 66879+18 7+4 12+7"),
  ("rejang rjng", "43312+36 11"),
  ("runic runr", "5792+89"),
  ("samaritan samr", "2048+46 2+15 9714"),
  ("saur saurashtra", "43136+70 8+12"),
  ("sharada shrd", "2385 4997 1 2+2 2 35663+6 2 26951+96"),
  ("shavian shaw", "183 66456+48"),
  ("sidd siddham", "71040+54 2+38"),
  ("sgnw signwriting", "120832+652 15+5 1+15"),
  ("sinh sinhala", "2404+2 1051+3 1+18 3+24 1+9 1 2+7 3 4+6 1 1+8 6+10 2+3 3837 62702+20"),
  ("sogd sogdian", "1600 67823+42"),
  ("sora sorasompeng", "69840+25 7+10"),
  ("soyo soyombo", "72272+83"),
  ("sund sundanese", "7040+64 256+8"),
  ("sunu sunuwar", "768+2 1 9 2 28 3 71822+34 14+10"),
  ("sylo sylotinagri", "2404+2 128+10 40464+45"),
  ("syrc syriac", "771+2 2+2 1 21 2+3 7+2 1 731 14+2 2 32 10+11 26 143+14 1+60 2+3 272+11 5517 1"),
  ("tagalog tglg", "5888+22 9 21+2"),
  ("tagb tagbanwa", "5941+2 41+13 1+3 1+2"),
  ("taile tale", "768+2 5+2 3 3379+10 2310+30 2+5"),
  ("lana taitham", "6688+63 1+29 2+11 6+10 6+14"),
  ("taiviet tavt", "43648+67 24+5"),
  ("takr takri", "2404+2 40650+10 28230+58 6+10"),
  ("tamil taml",
    "2385+2 17+2 540+2 1+6 3+3 1+4 3+2 1 1+2 3+2 3+3 3+12 4+5 3+3 1+4 2 6 14+21 4319 35864 " ++
    "27149 1 55+2 3203+50 13"),
  ("tangsa tnsa", "92784+79 1+10"),
  ("tang tangut", "12272+16 495 81392 31+6136 8+768 512+9"),
  ("telu telugu", "2385+2 17+2 666+13 1+3 1+23 1+16 2+9 1+3 1+4 7+2 1+3 2 2+4 2+10 7+9 4186 23"),
  ("thaa thaana", "1548 14+2 2 64+10 278+50 63040 10"),
  ("thai", "700 26 43 45 2767+58 5+28"),
  ("tibetan tibt", "3840+72 1+36 4+39 1+36 1+15 1+7 4+2 8237+4"),
  ("tfng tifinagh", "770 1 2 1 10790+56 7+2 14"),
  ("tirh tirhuta", "2385+2 17+2 5004 35645+10 27718+72 8+10"),
  ("todhri todr", "769 2 2 9 1 74 66145+52"),
  ("toto", "700 122835+31"),
  ("tulutigalari tutg", "3302+10 4098 1 35643+6 187 27278+10 1 2 1+38 1+10 1 2 1+4 1+10 1+2 8+2"),
  ("ugar ugaritic", "66432+30 1"),
  ("vai vaii", "42240+300"),
  ("vith vithkuqi", "66928+11 1+15 1+7 1+2 1+11 1+15 1+7 1+2"),
  ("wancho wcho", "123584+58 5"),
  ("wara warangciti", "71840+83 12"),
  ("yezi yezidi", "1548 14 3 64+10 67606+42 1+3 2+2"),
  ("yi yiii", "12289+2 5+10 2+8 223 28420+1165 3+55 23194+5"),
  ("zanabazarsquare zanb", "72192+72")]

end FlowEngine.Pattern
