/-!
# Boundary classes

The classes by which characters are grouped into clusters, words and sentences. Entries are written
as those of binary properties.
-/

namespace FlowEngine.Pattern

/-- The classes for clusters. -/
def clusterTable : List (String × String) := [
  ("cr", "13"),
  ("cn control",
    "0+10 1+2 1+18 95+33 13 1390 4593 2044 2+2 24+7 49+16 56975 240+12 13364+16 34912+4 " ++
    "5327+8 798341+32 96+128 240+3600"),
  ("ex extend",
    "768+112 275+7 263+45 1 1+2 1+2 1 72+11 48+21 16 101+7 2+6 2+2 1+4 35 30+27 91+11 58+9 9 " ++
    "24+4 1+9 1+3 1+5 43+3 59+9 42+24 1+32 55 1 4+8 4 3+7 10+2 29 58 1 2+4 8 9 10+2 26 2+2 57 " ++
    "4+2 4+2 2+3 3 30+2 3 11+2 57 4+5 1+2 4 20+2 22+6 1 58 1+2 1+4 8 7+3 10+2 30 59 1 12 9 40 " ++
    "3 55 1+3 5+3 1+4 7+2 11+2 29 58 2+2 1 3+3 1+4 7+2 11+2 28+2 57+2 1 2+4 8 9 10+2 29 72 4 " ++
    "2+3 1 8 81 2+7 12+8 98 2+9 11+7 73+2 27 1 1 55+14 1+5 1+2 5+11 1+36 9 102+4 1+6 1+2 2+2 " ++
    "25+2 4+3 16+4 13 2+2 6 15 703+3 946+4 28+3 29+2 30+2 64+2 1+7 8 2+11 9 45+3 1 117+2 34 " ++
    "118+3 4+2 9 6+3 219+2 2 58 1+7 1 1 2+8 6+10 2 48+31 49+4 48+10 4+3 38+9 12+2 32+4 2+6 56 " ++
    "1+2 3 1+5 56+8 2+2 152+3 1+13 1+7 4 6 3+2 198+64 524 195+33 3070+3 141 96+32 554+6 105+2 " ++
    "30164+4 1+10 32+2 80+2 272 3 4 25+2 5 151+2 26+18 13 38+8 25+11 1 44+3 48 2+4 2+2 2 36 " ++
    "67+6 2+2 2+2 12 8 47 51 1+3 2+2 5+2 1 42+2 8 238 2 4 20272 737+16 16+16 366+2 605 226 " ++
    "149+5 1670+3 1+2 5+4 40+3 4 165+2 573+4 65+5 317+2 79+4 70+11 49+4 123 54+15 41 2+2 10+3 " ++
    "49+4 2+2 7 61+3 36+5 1+8 62 12+2 52+9 1 8+4 2 95+3 2+4 6 2 157 3+8 21+2 57+2 1 1 12 9 " ++
    "14+7 3+5 67 2+6 1 2 1+3 4+3 1 14+2 85+8 2+3 1 23 81 2+6 1 2 1+2 1+2 235 2+4 6+2 1+2 27+2 " ++
    "85+8 2 1+2 106 1 2+8 101 1 2+4 1+5 259+9 1+2 245 10+4 4 144+4 2+2 4 32+10 40+6 2+4 8 9+6 " ++
    "2+3 46+13 1+2 406+7 1+6 1 82+22 2+7 1+2 1+2 122+6 3 1+2 1+7 1 72+2 3 1 347+2 11+2 52+5 " ++
    "5+3 23 5349 6+15 11464+12 3+3 2496+5 59+7 1048 63+4 81 11+2 19627+2 4705+46 2+23 542+5 " ++
    "3+6 8+8 2+7 30+4 148+3 1979+55 4+50 8 14 22+5 1+15 1360+7 1+17 2+7 1+2 1+5 100 160+7 375 " ++
    "61+4 508+4 254+2 736+7 109+7 2736+5 789536+96 128+240"),
  ("l", "4352+96 38912+29"),
  ("lf", "10"),
  ("lv",
    "44032 27 27 27 27 27 27 27 27 27 27 27 27 27 27 27 27 27 27 27 27 27 27 27 27 27 27 27 " ++
    "27 27 27 27 27 27 27 27 27 27 27 27 27 27 27 27 27 27 27 27 27 27 27 27 27 27 27 27 27 " ++
    "27 27 27 27 27 27 27 27 27 27 27 27 27 27 27 27 27 27 27 27 27 27 27 27 27 27 27 27 27 " ++
    "27 27 27 27 27 27 27 27 27 27 27 27 27 27 27 27 27 27 27 27 27 27 27 27 27 27 27 27 27 " ++
    "27 27 27 27 27 27 27 27 27 27 27 27 27 27 27 27 27 27 27 27 27 27 27 27 27 27 27 27 27 " ++
    "27 27 27 27 27 27 27 27 27 27 27 27 27 27 27 27 27 27 27 27 27 27 27 27 27 27 27 27 27 " ++
    "27 27 27 27 27 27 27 27 27 27 27 27 27 27 27 27 27 27 27 27 27 27 27 27 27 27 27 27 27 " ++
    "27 27 27 27 27 27 27 27 27 27 27 27 27 27 27 27 27 27 27 27 27 27 27 27 27 27 27 27 27 " ++
    "27 27 27 27 27 27 27 27 27 27 27 27 27 27 27 27 27 27 27 27 27 27 27 27 27 27 27 27 27 " ++
    "27 27 27 27 27 27 27 27 27 27 27 27 27 27 27 27 27 27 27 27 27 27 27 27 27 27 27 27 27 " ++
    "27 27 27 27 27 27 27 27 27 27 27 27 27 27 27 27 27 27 27 27 27 27 27 27 27 27 27 27 27 " ++
    "27 27 27 27 27 27 27 27 27 27 27 27 27 27 27 27 27 27 27 27 27 27 27 27 27 27 27 27 27 " ++
    "27 27 27 27 27 27 27 27 27 27 27 27 27 27 27 27 27 27 27 27 27 27 27 27 27 27 27 27 27 " ++
    "27 27 27 27 27 27 27 27 27 27 27 27 27 27 27 27 27 27 27 27 27 27 27"),
  ("lvt",
    "44033+27 1+27 1+27 1+27 1+27 1+27 1+27 1+27 1+27 1+27 1+27 1+27 1+27 1+27 1+27 1+27 1+27 " ++
    "1+27 1+27 1+27 1+27 1+27 1+27 1+27 1+27 1+27 1+27 1+27 1+27 1+27 1+27 1+27 1+27 1+27 " ++
    "1+27 1+27 1+27 1+27 1+27 1+27 1+27 1+27 1+27 1+27 1+27 1+27 1+27 1+27 1+27 1+27 1+27 " ++
    "1+27 1+27 1+27 1+27 1+27 1+27 1+27 1+27 1+27 1+27 1+27 1+27 1+27 1+27 1+27 1+27 1+27 " ++
    "1+27 1+27 1+27 1+27 1+27 1+27 1+27 1+27 1+27 1+27 1+27 1+27 1+27 1+27 1+27 1+27 1+27 " ++
    "1+27 1+27 1+27 1+27 1+27 1+27 1+27 1+27 1+27 1+27 1+27 1+27 1+27 1+27 1+27 1+27 1+27 " ++
    "1+27 1+27 1+27 1+27 1+27 1+27 1+27 1+27 1+27 1+27 1+27 1+27 1+27 1+27 1+27 1+27 1+27 " ++
    "1+27 1+27 1+27 1+27 1+27 1+27 1+27 1+27 1+27 1+27 1+27 1+27 1+27 1+27 1+27 1+27 1+27 " ++
    "1+27 1+27 1+27 1+27 1+27 1+27 1+27 1+27 1+27 1+27 1+27 1+27 1+27 1+27 1+27 1+27 1+27 " ++
    "1+27 1+27 1+27 1+27 1+27 1+27 1+27 1+27 1+27 1+27 1+27 1+27 1+27 1+27 1+27 1+27 1+27 " ++
    "1+27 1+27 1+27 1+27 1+27 1+27 1+27 1+27 1+27 1+27 1+27 1+27 1+27 1+27 1+27 1+27 1+27 " ++
    "1+27 1+27 1+27 1+27 1+27 1+27 1+27 1+27 1+27 1+27 1+27 1+27 1+27 1+27 1+27 1+27 1+27 " ++
    "1+27 1+27 1+27 1+27 1+27 1+27 1+27 1+27 1+27 1+27 1+27 1+27 1+27 1+27 1+27 1+27 1+27 " ++
    "1+27 1+27 1+27 1+27 1+27 1+27 1+27 1+27 1+27 1+27 1+27 1+27 1+27 1+27 1+27 1+27 1+27 " ++
    "1+27 1+27 1+27 1+27 1+27 1+27 1+27 1+27 1+27 1+27 1+27 1+27 1+27 1+27 1+27 1+27 1+27 " ++
    "1+27 1+27 1+27 1+27 1+27 1+27 1+27 1+27 1+27 1+27 1+27 1+27 1+27 1+27 1+27 1+27 1+27 " ++
    "1+27 1+27 1+27 1+27 1+27 1+27 1+27 1+27 1+27 1+27 1+27 1+27 1+27 1+27 1+27 1+27 1+27 " ++
    "1+27 1+27 1+27 1+27 1+27 1+27 1+27 1+27 1+27 1+27 1+27 1+27 1+27 1+27 1+27 1+27 1+27 " ++
    "1+27 1+27 1+27 1+27 1+27 1+27 1+27 1+27 1+27 1+27 1+27 1+27 1+27 1+27 1+27 1+27 1+27 " ++
    "1+27 1+27 1+27 1+27 1+27 1+27 1+27 1+27 1+27 1+27 1+27 1+27 1+27 1+27 1+27 1+27 1+27 " ++
    "1+27 1+27 1+27 1+27 1+27 1+27 1+27 1+27 1+27 1+27 1+27 1+27 1+27 1+27 1+27 1+27 1+27 " ++
    "1+27 1+27 1+27 1+27 1+27 1+27 1+27 1+27 1+27 1+27 1+27 1+27 1+27 1+27 1+27 1+27 1+27 " ++
    "1+27 1+27 1+27 1+27 1+27 1+27 1+27 1+27 1+27 1+27 1+27 1+27 1+27 1+27 1+27 1+27 1+27 " ++
    "1+27 1+27 1+27 1+27 1+27 1+27 1+27 1+27"),
  ("pp prepend", "1536+6 215 49 384+2 80 1131 66414 15 244+2 525 1389 1 248 73+6 700 443"),
  ("regionalindicator ri", "127462+26"),
  ("sm spacingmark",
    "2307 55 2+3 8+4 1+2 50+2 59+2 6+2 2+2 54 58+3 66 58+3 8 1+2 53+2 60 6+2 2+2 114 1+2 3+3 " ++
    "1+3 52+3 61+4 61+2 58 2 1+2 46 14+2 59+2 5+3 1+3 53+2 76+2 6+7 19+2 63 127 138+2 63 177 " ++
    "9+2 25+2 44 1841 7+8 1+2 346+4 2+3 4+2 1+6 224+2 58 1 21+6 145 57+4 64 30 4+2 63 2+3 1 " ++
    "53+8 8+2 171 21 35627+2 2 88+2 50+16 142 48 48+2 4+2 2+2 111+2 2+2 24 157 2+2 5 237+2 " ++
    "1+2 1+2 1 25619 1 127 45+3 4+2 115 24+2 59 48+3 9 14 93+3 3+2 172+3 31+2 59 1+4 2+2 2+2 " ++
    "21+2 85+2 15 1+2 103+3 8+2 3 107+2 6 1+2 1 2 238+2 6+4 2 113+3 8+2 1 109 1+2 110 7 261+3 " ++
    "9 248+5 1+2 7 1 142+3 8+4 4 84 29+2 62 407 14 106 7 2 213+5 4+2 1 350+2 12 48+2 8+2 " ++
    "16874+3 3620+55"),
  ("t", "4520+88 50635+49"),
  ("v", "4448+72 50696+23 38300 3+4"),
  ("zwj", "8205")]

/-- The classes for words. -/
def wordTable : List (String × String) := [
  ("aletter le",
    "65+26 6+26 47 10 4 5+23 1+31 1+480 6+34 112+5 1+2 2+4 1 6 1+3 1 1+20 1+83 1+139 8+166 " ++
    "1+38 2+4 1 1+41 1 104 44+43 35+2 1+99 1 15+2 7+2 10+3 2 15+2 1+30 29+89 11 24+33 9+2 4 " ++
    "5+22 4 9 3 23+25 7+11 5+24 1+6 17+42 58+54 3 18 7+10 15+16 4+8 2+2 2+22 1+7 1 3+4 3 16 " ++
    "13+2 1+3 14+2 10 8+6 4+2 2+22 1+7 1+2 1+2 1+2 31+4 1 19+3 16+9 1+3 1+22 1+7 1+2 1+5 3 18 " ++
    "15+2 23 11+8 2+2 2+22 1+7 1+2 1+5 3 30+2 1+3 15 17 1+6 3+3 1+4 3+2 1 1+2 3+2 3+3 3+12 22 " ++
    "52+8 1+3 1+23 1+16 3 26+3 2 2+2 30 4+8 1+3 1+23 1+10 1+5 3 31+2 1+2 15+2 17+9 1+3 1+41 2 " ++
    "16 5+3 8+3 24+6 5+18 3+24 1+9 1 2+7 313 63+8 1+36 27+5 275+38 1 5 2+43 1+333 1+4 2+7 1 " ++
    "1+4 2+41 1+4 2+33 1+4 2+7 1 1+4 2+15 1+57 1+4 2+67 37+16 16+86 2+6 3+620 2+17 1+26 5+75 " ++
    "3+11 7+18 13+19 14+18 14+13 1+3 175+89 7+5 2+34 1 5+70 10+31 225+23 238+47 17+8 54+30 " ++
    "13+2 10+44 26+36 41+3 10+36 2+11 5+43 2+3 41+4 1+6 1+2 3 5+192 64+278 2+6 2+38 2+6 2+8 1 " ++
    "1 1 1+31 2+53 1+7 1 3+3 1+7 3+4 2+6 4+13 5+3 1+7 116 13 16+13 101 4 2+10 1 3+5 6 1 1 1+4 " ++
    "1+11 2+4 5+5 4 17+41 813+52 1814+229 6+4 3+2 12+38 1 5 2+56 7 16+23 9+7 1+7 1+7 1+7 1+7 " ++
    "1+7 1+7 1+7 80 469 53+2 200+43 1+94 17+32 28224+1165 67+46 2+269 3+16 10+2 20+47 16+31 " ++
    "2+80 24+198 2+2 1 1+8 21+16 1+3 1+4 1+23 29+52 14+50 62+6 3 1+2 11+28 10+23 25+29 7+47 " ++
    "28 48+41 23+3 1+8 148+11 7+3 12+6 2+6 2+6 9+7 1+7 1+58 6+115 29+11172 12+23 4+49 8964+7 " ++
    "12+5 56+98 33+363 18+64 2+54 40+12 116+5 1+135 36+26 6+26 69+31 3+6 2+6 2+6 2+3 35+12 " ++
    "1+26 1+19 1+2 1+15 2+14 34+123 69+53 267+29 3+49 47+32 13+30 5+38 10+30 2+36 4+8 1+5 " ++
    "42+158 18+36 4+36 4+40 8+52 12+11 1+15 1+7 1+2 1+11 1+15 1+7 1+2 3+52 12+311 9+22 10+8 " ++
    "24+6 1+42 1+9 69+6 2 1+44 1+2 3 2+23 10+23 9+31 65+19 1+2 10+22 10+26 70+56 6+2 64 15+4 " ++
    "1+3 1+29 42+29 3+29 35+8 1+28 27+54 10+22 10+19 13+18 110+73 55+51 13+51 13+36 38+28 " ++
    "9+23 250+42 6+2 16+3 59+29 10 8+22 42+18 46+21 27+23 12+53 57+2 2 13+45 32+25 26+36 29 2 " ++
    "8+35 3 12+48 14+4 21 1 35+18 1+25 19+2 63+7 1 1+4 1+15 1+10 7+47 38+8 2+2 2+22 1+7 1+2 " ++
    "1+5 3 18 12+5 30+10 1 2 1+38 1 25 1 44+53 18+4 20+3 30+48 20+2 1 184+47 41+4 36+48 20 " ++
    "59+43 13 327+44 116+64 31+8 2 2+8 1+2 1+24 15 1 94+8 2+39 16 1 28 10+40 7 21 11+46 19 " ++
    "18+73 199+33 31+9 1+37 17 49+30 112+7 1+2 1+38 21 25+6 1+2 1+32 14 327+19 15 1+13 1+34 " ++
    "124 79+922 102+111 17+196 2636+97 15+1072 17+6 25+3995 5+583 6841+30 1762+569 7+31 17+79 " ++
    "17+30 18+48 16+4 31+21 5+19 432+45 211+64 128+75 5 66+13 64+2 1 19484+107 5+13 3+9 7+10 " ++
    "5990+85 1+71 1+2 2 2+2 2+4 1+12 1 1+7 1+65 1+4 2+8 1+7 1+28 1+4 1+5 1 3+7 1+340 2+25 " ++
    "1+25 1+31 1+25 1+31 1+25 1+31 1+25 1+31 1+25 1+8 1844+31 6+6 261+62 146+45 10+7 16 " ++
    "321+30 18+44 484+28 228+30 2 495+7 1+4 1+2 1+15 1+197 59+68 7 1204+4 1+27 1+2 1 2 1+10 " ++
    "1+4 1 1 6 4 1 1 1+3 1+2 1 2 1 1 1 1 1+2 1 2+4 1+7 1+4 1+4 1 1+10 1+17 5+3 1+5 1+17 " ++
    "628+26 6+26 6+26"),
  ("cr", "13"),
  ("doublequote dq", "34"),
  ("extend",
    "768+112 275+7 263+45 1 1+2 1+2 1 72+11 48+21 16 101+7 2+6 2+2 1+4 35 30+27 91+11 58+9 9 " ++
    "24+4 1+9 1+3 1+5 43+3 59+9 42+24 1+33 54+3 1+18 1+7 10+2 29+3 56 1+7 2+2 2+3 9 10+2 26 " ++
    "2+3 56 1+5 4+2 2+3 3 30+2 3 11+3 56 1+8 1+3 1+3 20+2 22+6 1+3 56 1+7 2+2 2+3 7+3 10+2 30 " ++
    "59+5 3+3 1+4 9 40+5 55 1+7 1+3 1+4 7+2 11+2 29+3 56 1+7 1+3 1+4 7+2 11+2 15 12+4 55+2 " ++
    "1+7 1+3 1+4 9 10+2 29+3 70 4+6 1 1+8 18+2 61 2+7 12+8 98 2+9 11+7 73+2 27 1 1 4+2 49+20 " ++
    "1+2 5+11 1+36 9 100+20 23+4 4+3 1+3 2+7 3+4 13+12 1 10+4 703+3 946+4 28+3 29+2 30+2 " ++
    "64+32 9 45+3 1 117+2 34 118+12 4+12 219+5 57+10 1+29 2 48+31 49+5 47+17 38+9 12+3 30+13 " ++
    "56+14 48+20 152+3 1+21 4 6 2+3 198+64 524 195+33 3070+3 141 96+32 554+6 105+2 30164+4 " ++
    "1+10 32+2 80+2 272 3 4 23+5 4 83+2 50+18 26+18 13 38+8 25+13 44+4 47+14 36 67+14 12 8+2 " ++
    "45+3 50 1+3 2+2 5+2 1 41+5 5+2 236+8 1+2 20272 737+16 16+16 366+2 605 226 149+5 1670+3 " ++
    "1+2 5+4 40+3 4 165+2 573+4 65+5 317+2 79+4 70+11 49+4 122+3 53+15 41 2+2 10+4 45+11 7 " ++
    "61+3 36+14 16+2 44 12+3 48+14 8+4 1+2 92+12 6 2 157+12 21+4 55+2 1+7 2+2 2+3 9 10+2 2+7 " ++
    "3+5 67+9 1 2 1+4 1+5 1 14+2 82+18 23 81+20 235+7 2+9 27+2 82+17 106+13 101+15 256+15 " ++
    "245+6 1+2 2+4 1 1+2 141+7 2+7 3 28+10 40+7 1+4 8 9+11 46+16 405+8 1+8 82+22 1+14 122+6 3 " ++
    "1+2 1+7 1 66+5 1+2 1+5 347+4 9+2 1 48+7 3+5 23 5349 6+15 11464+18 2496+5 59+7 1048 1+55 " ++
    "7+4 81 11+2 19627+2 4705+46 2+23 542+5 3+6 8+8 2+7 30+4 148+3 1979+55 4+50 8 14 22+5 " ++
    "1+15 1360+7 1+17 2+7 1+2 1+5 100 160+7 375 61+4 508+4 254+2 736+7 109+7 2736+5 789536+96 " ++
    "128+240"),
  ("ex extendnumlet", "95 8143 15+2 19 56798+2 24+3 239"),
  ("fo format", "173 1390 4593 2047+2 26+5 49+5 1+10 56975 249+3 13364+16 34912+4 5327+8 798342"),
  ("hebrewletter hl", "1488+27 4+4 62762 1+10 1+13 1+5 1 1+2 1+2 1+10"),
  ("ka katakana",
    "12337+5 101+2 3+91 1+4 240+16 208+47 1+88 52238+56 45138+4 1+7 1+2 1 287+3 50 14+4"),
  ("lf", "10"),
  ("midletter ml", "58 124 719 471 148 6706 56811 65 196"),
  ("midnum mn", "44 14 834 522 130+2 94 395 6219 56843 3 183 14"),
  ("mb midnumlet", "46 8169+2 10 56877 180 6"),
  ("newline nl", "11+2 120 8098+2"),
  ("nu numeric",
    "48+10 1478+6 90+10 1 113 18+10 198+10 198+2 80 131+10 118+10 118+10 118+10 118+10 118+10 " ++
    "118+10 118+10 118+10 118+10 96+10 118+10 70+10 278+10 70+10 1862+10 38+10 300+10 128+11 " ++
    "165+10 6+10 182+10 86+10 134+10 6+10 35270+10 678+10 38+10 198+10 22+10 86+10 406+10 " ++
    "21270+10 1414+10 2182+10 6+10 796+10 77 15 34+10 60+10 144+10 278+10 342+10 118+10 " ++
    "374+10 102+10 6+20 76+10 422+10 102+10 662+10 86+10 246+10 70+10 422+10 16854+10 2342+10 " ++
    "86+10 134+10 534+10 24438+10 2772+50 2368+10 422+10 502+10 247+10 853+10 4758+10"),
  ("regionalindicator ri", "127462+26"),
  ("singlequote sq", "39"),
  ("wsegspace", "32 5727 2431+7 1+3 84 4000"),
  ("zwj", "8205")]

/-- The classes for sentences. -/
def sentenceTable : List (String × String) := [
  ("at aterm", "46 8181 56877 187"),
  ("cr", "13"),
  ("cl close",
    "34 4+3 49 1 29 1 45 15 3710+4 1885+2 2427+8 25+2 10+2 54+2 14+2 633+4 29+2 1072+6 7+14 " ++
    "79+2 31+10 403+22 63+4 32+2 1026+14 14+2 2+10 24 18+8 427+10 2+8 1+3 52510+2 215+2 28+16 " ++
    "2+2 16+6 169+2 49 1 29 1 1+2 1+2 63250+3"),
  ("ex extend",
    "768+112 275+7 263+45 1 1+2 1+2 1 72+11 48+21 16 101+7 2+6 2+2 1+4 35 30+27 91+11 58+9 9 " ++
    "24+4 1+9 1+3 1+5 43+3 59+9 42+24 1+33 54+3 1+18 1+7 10+2 29+3 56 1+7 2+2 2+3 9 10+2 26 " ++
    "2+3 56 1+5 4+2 2+3 3 30+2 3 11+3 56 1+8 1+3 1+3 20+2 22+6 1+3 56 1+7 2+2 2+3 7+3 10+2 30 " ++
    "59+5 3+3 1+4 9 40+5 55 1+7 1+3 1+4 7+2 11+2 29+3 56 1+7 1+3 1+4 7+2 11+2 15 12+4 55+2 " ++
    "1+7 1+3 1+4 9 10+2 29+3 70 4+6 1 1+8 18+2 61 2+7 12+8 98 2+9 11+7 73+2 27 1 1 4+2 49+20 " ++
    "1+2 5+11 1+36 9 100+20 23+4 4+3 1+3 2+7 3+4 13+12 1 10+4 703+3 946+4 28+3 29+2 30+2 " ++
    "64+32 9 45+3 1 117+2 34 118+12 4+12 219+5 57+10 1+29 2 48+31 49+5 47+17 38+9 12+3 30+13 " ++
    "56+14 48+20 152+3 1+21 4 6 2+3 198+64 524+2 194+33 3070+3 141 96+32 554+6 105+2 30164+4 " ++
    "1+10 32+2 80+2 272 3 4 23+5 4 83+2 50+18 26+18 13 38+8 25+13 44+4 47+14 36 67+14 12 8+2 " ++
    "45+3 50 1+3 2+2 5+2 1 41+5 5+2 236+8 1+2 20272 737+16 16+16 366+2 605 226 149+5 1670+3 " ++
    "1+2 5+4 40+3 4 165+2 573+4 65+5 317+2 79+4 70+11 49+4 122+3 53+15 41 2+2 10+4 45+11 7 " ++
    "61+3 36+14 16+2 44 12+3 48+14 8+4 1+2 92+12 6 2 157+12 21+4 55+2 1+7 2+2 2+3 9 10+2 2+7 " ++
    "3+5 67+9 1 2 1+4 1+5 1 14+2 82+18 23 81+20 235+7 2+9 27+2 82+17 106+13 101+15 256+15 " ++
    "245+6 1+2 2+4 1 1+2 141+7 2+7 3 28+10 40+7 1+4 8 9+11 46+16 405+8 1+8 82+22 1+14 122+6 3 " ++
    "1+2 1+7 1 66+5 1+2 1+5 347+4 9+2 1 48+7 3+5 23 5349 6+15 11464+18 2496+5 59+7 1048 1+55 " ++
    "7+4 81 11+2 19627+2 4705+46 2+23 542+5 3+6 8+8 2+7 30+4 148+3 1979+55 4+50 8 14 22+5 " ++
    "1+15 1360+7 1+17 2+7 1+2 1+5 100 160+7 375 61+4 508+4 254+2 736+7 109+7 792277+96 128+240"),
  ("fo format",
    "173 1390 242 4350 2044 2+2 26+5 49+5 1+10 56975 249+3 13364+16 34912+4 5327+8 798342"),
  ("lf", "10"),
  ("lo lower",
    "97+26 47 10 4 36+24 1+8 1 1 1 1 1 1 1 1 1 1 1 1 1 1 1 1 1 1 1 1 1 1 1 1 1 1 1 1+2 1 1 1 " ++
    "1 1 1 1 1+2 1 1 1 1 1 1 1 1 1 1 1 1 1 1 1 1 1 1 1 1 1 1 1 2 1 1+3 2 1 2 3+2 4 2 3+3 2 2 " ++
    "1 1 2 1+2 1 2 3 1 2+2 2+3 6 2 2 1 1 1 1 1 1 1 1+2 1 1 1 1 1 1 1 1 1+2 2 1 3 1 1 1 1 1 1 " ++
    "1 1 1 1 1 1 1 1 1 1 1 1 1 1 1 1 1 1 1 1 1 1 1+7 2 2+2 1 4 1 1 1 1+69 1+36 7+2 30+5 140 1 " ++
    "3 2+4 18 27+35 1+2 3+3 1 1 1 1 1 1 1 1 1 1 1 1+5 1 2 2+2 51+48 1 1 1 1 1 1 1 1 1 1 1 1 1 " ++
    "1 1 1 1 9 1 1 1 1 1 1 1 1 1 1 1 1 1 1 1 1 1 1 1 1 1 1 1 1 1 1 2 1 1 1 1 1 1+2 1 1 1 1 1 " ++
    "1 1 1 1 1 1 1 1 1 1 1 1 1 1 1 1 1 1 1 1 1 1 1 1 1 1 1 1 1 1 1 1 1 1 1 1 1 1 1 1 1 1 1 " ++
    "48+41 2931 763+6 2178+9 1 117+192 65 1 1 1 1 1 1 1 1 1 1 1 1 1 1 1 1 1 1 1 1 1 1 1 1 1 1 " ++
    "1 1 1 1 1 1 1 1 1 1 1 1 1 1 1 1 1 1 1 1 1 1 1 1 1 1 1 1 1 1 1 1 1 1 1 1 1 1 1 1 1 1 1 1 " ++
    "1 1 1 1+9 1 1 1 1 1 1 1 1 1 1 1 1 1 1 1 1 1 1 1 1 1 1 1 1 1 1 1 1 1 1 1 1 1 1 1 1 1 1 1 " ++
    "1 1 1 1 1 1 1 1 1 1+9 8+6 10+8 8+8 8+6 10+8 8+8 8+14 2+8 8+8 8+8 8+5 1+2 6 3+3 1+2 8+4 " ++
    "2+2 8+8 10+3 1+2 121 13 16+13 109 3+2 3 27 4 4 2+2 8+4 4 33+16 4 843+26 1862+48 1 3+2 1 " ++
    "1 1 4 1+2 1+8 3 1 1 1 1 1 1 1 1 1 1 1 1 1 1 1 1 1 1 1 1 1 1 1 1 1 1 1 1 1 1 1 1 1 1 1 1 " ++
    "1 1 1 1 1 1 1 1 1 1 1 1 1+2 7 1 4 12+38 1 5 30995 1 1 1 1 1 1 1 1 1 1 1 1 1 1 1 1 1 1 1 " ++
    "1 1 1 19 1 1 1 1 1 1 1 1 1 1 1 1 1+3 133 1 1 1 1 1 1+3 1 1 1 1 1 1 1 1 1 1 1 1 1 1 1 1 1 " ++
    "1 1 1 1 1 1 1 1 1 1 1 1 1 1+10 1 1 2 1 1 1 1 4 1 2 1+3 1 1 1 1 1 1 1 1 1 1 5 5 1 1 1 1 1 " ++
    "1 1 4 1 2 3 1 1 1 1 1 22+3 1 1+3 821+43 1+14 6+80 20288+7 12+5 1065+26 1229+40 136+36 " ++
    "155+11 1+15 1+7 1+2 451 2+3 1+42 1+9 1285+51 125+22 2874+32 21888+32 26010+26 26+7 1+18 " ++
    "26+26 26+4 1 1+7 1+11 26+26 26+26 26+26 26+26 26+26 26+26 26+26 26+26 26+28 28+25 1+6 " ++
    "26+25 1+6 26+25 1+6 26+25 1+6 26+25 1+6 1 1844+10 1+20 6+6 261+62 2228+34"),
  ("nu numeric",
    "48+10 1478+6 90+10 1+2 112 18+10 198+10 198+2 80 131+10 118+10 118+10 118+10 118+10 " ++
    "118+10 118+10 118+10 118+10 118+10 96+10 118+10 70+10 278+10 70+10 1862+10 38+10 300+10 " ++
    "128+11 165+10 6+10 182+10 86+10 134+10 6+10 35270+10 678+10 38+10 198+10 22+10 86+10 " ++
    "406+10 21270+10 1414+10 2182+10 6+10 796+10 77 15 34+10 60+10 144+10 278+10 342+10 " ++
    "118+10 374+10 102+10 6+20 76+10 422+10 102+10 662+10 86+10 246+10 70+10 422+10 16854+10 " ++
    "2342+10 86+10 134+10 534+10 24438+10 2772+50 2368+10 422+10 502+10 247+10 853+10 4758+10"),
  ("le oletter",
    "443 4+4 208 36+7 6+12 26 1 133 484 118+27 4+5 44+43 35+2 1+99 1 15+2 7+2 10+3 2 16 1+30 " ++
    "29+89 11 24+33 9+2 4 5+22 4 9 3 23+25 7+11 5+24 1+6 17+42 58+54 3 18 7+10 15+16 4+8 2+2 " ++
    "2+22 1+7 1 3+4 3 16 13+2 1+3 14+2 10 8+6 4+2 2+22 1+7 1+2 1+2 1+2 31+4 1 19+3 16+9 1+3 " ++
    "1+22 1+7 1+2 1+5 3 18 15+2 23 11+8 2+2 2+22 1+7 1+2 1+5 3 30+2 1+3 15 17 1+6 3+3 1+4 3+2 " ++
    "1 1+2 3+2 3+3 3+12 22 52+8 1+3 1+23 1+16 3 26+3 2 2+2 30 4+8 1+3 1+23 1+10 1+5 3 31+2 " ++
    "1+2 15+2 17+9 1+3 1+41 2 16 5+3 8+3 24+6 5+18 3+24 1+9 1 2+7 58+48 1+2 12+7 58+2 1 1+5 " ++
    "1+24 1 1+10 1+2 9 2+5 1 21+4 32 63+8 1+36 27+5 115+43 20 16+6 4+4 3 3+2 7+3 4+13 12 " ++
    "65+43 2+332 1+4 2+7 1 1+4 2+41 1+4 2+33 1+4 2+7 1 1+4 2+15 1+57 1+4 2+67 37+16 113+620 " ++
    "2+17 1+26 5+75 3+11 7+18 13+19 14+18 14+13 1+3 15+52 35 4 67+89 7+5 2+34 1 5+70 10+31 " ++
    "49+30 2+5 11+44 4+26 54+23 9+53 82 93+47 17+8 54+30 13+2 10+44 26+36 41+3 10+36 18+43 " ++
    "2+3 41+4 1+6 1+2 3 1082+4 71+3 2+4 2983+56 7 16+23 9+7 1+7 1+7 1+7 1+7 1+7 1+7 1+7 80 " ++
    "469+3 25+9 7+5 2+5 4+86 6+3 1+90 1+4 5+43 1+94 17+32 48+16 512+6592 64+22157 67+46 2+269 " ++
    "3+16 10+2 66 16 32+80 39+9 104 6 103 3+7 1+3 1+4 1+23 29+52 14+50 62+6 3 1+2 11+28 10+23 " ++
    "25+29 7+47 28 16+5 1+10 10+5 1+41 23+3 1+8 20+23 3 3+50 1 3+2 2+5 2 1 24+3 2+11 7+3 12+6 " ++
    "2+6 2+6 9+7 1+7 145+35 29+11172 12+23 4+49 8452+366 2+106 67 1+10 1+13 1+5 1 1+2 1+2 " ++
    "1+108 33+363 18+64 2+54 40+12 116+5 1+135 105+56 2+31 3+6 2+6 2+6 2+3 35+12 1+26 1+19 " ++
    "1+2 1+15 2+14 34+123 69+53 267+29 3+49 47+32 13+30 5+38 10+30 2+36 4+8 1+5 122+78 98+40 " ++
    "8+52 92+52 12+311 9+22 10+8 25+2 125+6 2 1+44 1+2 3 2+23 10+23 9+31 65+19 1+2 10+22 " ++
    "10+26 70+56 6+2 64 15+4 1+3 1+29 42+29 3+29 35+8 1+28 27+54 10+22 10+19 13+18 110+73 " ++
    "183+36 38+6 31 272+42 6+2 16+3 59+29 10 8+22 42+18 46+21 27+23 12+53 57+2 2 13+45 32+25 " ++
    "26+36 29 2 8+35 3 12+48 14+4 21 1 35+18 1+25 19+2 63+7 1 1+4 1+15 1+10 7+47 38+8 2+2 " ++
    "2+22 1+7 1+2 1+5 3 18 12+5 30+10 1 2 1+38 1 25 1 44+53 18+4 20+3 30+48 20+2 1 184+47 " ++
    "41+4 36+48 20 59+43 13 71+27 37+7 185+44 211+8 2 2+8 1+2 1+24 15 1 94+8 2+39 16 1 28 " ++
    "10+40 7 21 11+46 19 18+73 199+33 31+9 1+37 17 49+30 112+7 1+2 1+38 21 25+6 1+2 1+32 14 " ++
    "327+19 15 1+13 1+34 124 79+922 102+111 17+196 2636+97 15+1072 17+6 25+3995 5+583 6841+30 " ++
    "1762+569 7+31 17+79 17+30 18+48 16+4 31+21 5+19 432+45 403+75 5 66+13 64+2 1 28+6136 " ++
    "8+1238 41+10 8935+4 1+7 1+2 1+291 15 29+3 2 14+4 8+396 2308+107 5+13 3+9 7+10 8816 " ++
    "501+45 10+7 16 321+30 18+44 484+28 228+30 2 495+7 1+4 1+2 1+15 1+197 134 1204+4 1+27 1+2 " ++
    "1 2 1+10 1+4 1 1 6 4 1 1 1+3 1+2 1 2 1 1 1 1 1+2 1 2+4 1+7 1+4 1+4 1 1+10 1+17 5+3 1+5 " ++
    "1+17 4420+42720 32+4154 6+222 2+5762 14+7473 15+622 2466+542 1506+4939 5+4192"),
  ("sc scontinue",
    "44+2 12+2 834 478 174+2 490 4105 5 2058+2 4076 52750+2 1+2 28+2 29+2 2+2 2 10 168+2 12+2 " ++
    "72"),
  ("st sterm",
    "33 29 1353 147+3 180 43+3 246 61 1 3+2 293+2 1764+2 790 4+2 773 198+2 157+2 45 5 314+2 " ++
    "354+4 162+2 10+2 2+2 29+3 187+2 65+2 956+2 9+3 3247+3 306 13 22+2 429 29948 270+2 227 3 " ++
    "382+2 86+2 95 152+2 147+3 144+2 249 21030 2+2 63+2 169 29 65 2804+2 1277+5 44+4 189+2 " ++
    "117+4 127+3 129+2 6 16+2 88+2 1+2 108 298+2 117+2 373+2 5+15 105+2 249+3 517 1 251+2 " ++
    "87+2 420+2 692+2 74+2 19241+2 133 65+2 11 553+2 296 19974 7656"),
  ("se sep", "133 8098+2"),
  ("sp", "9 1+2 19 127 5599 2431+11 36 47 4000"),
  ("up upper",
    "65+26 101+23 1+7 33 1 1 1 1 1 1 1 1 1 1 1 1 1 1 1 1 1 1 1 1 1 1 1 1 1 1 1 2 1 1 1 1 1 1 " ++
    "1 2 1 1 1 1 1 1 1 1 1 1 1 1 1 1 1 1 1 1 1 1 1 1 1+2 1 1 3+2 1 1+2 1+3 2+4 1+2 1+3 3+2 " ++
    "1+2 1 1 1+2 1 2 1+2 1+3 1 1+2 3 7+2 1+2 1+2 1 1 1 1 1 1 1 1 2 1 1 1 1 1 1 1 1 2+2 1 1+3 " ++
    "1 1 1 1 1 1 1 1 1 1 1 1 1 1 1 1 1 1 1 1 1 1 1 1 1 1 1 1 1 7+2 1+2 2 1+4 1 1 1 1 289 1 3 " ++
    "8 6 1+3 1 1+2 1+17 1+9 35 2+3 3 1 1 1 1 1 1 1 1 1 1 1 5 2 1+2 2+51 48 1 1 1 1 1 1 1 1 1 " ++
    "1 1 1 1 1 1 1 9 1 1 1 1 1 1 1 1 1 1 1 1 1 1 1 1 1 1 1 1 1 1 1 1 1 1 1+2 1 1 1 1 1 1 2 1 " ++
    "1 1 1 1 1 1 1 1 1 1 1 1 1 1 1 1 1 1 1 1 1 1 1 1 1 1 1 1 1 1 1 1 1 1 1 1 1 1 1 1 1 1 1 1 " ++
    "1 1 2+38 2889+38 1 5 722+86 2195 374 1 1 1 1 1 1 1 1 1 1 1 1 1 1 1 1 1 1 1 1 1 1 1 1 1 1 " ++
    "1 1 1 1 1 1 1 1 1 1 1 1 1 1 1 1 1 1 1 1 1 1 1 1 1 1 1 1 1 1 1 1 1 1 1 1 1 1 1 1 1 1 1 1 " ++
    "1 1 1 1 9 1 1 1 1 1 1 1 1 1 1 1 1 1 1 1 1 1 1 1 1 1 1 1 1 1 1 1 1 1 1 1 1 1 1 1 1 1 1 1 " ++
    "1 1 1 1 1 1 1 1 1 9+8 8+6 10+8 8+8 8+6 11 1 1 1 8+8 24+8 8+8 8+8 8+5 11+5 11+4 12+5 11+5 " ++
    "261 4 3+3 2+3 2 3+5 6 1 1 1+4 2+4 10+2 5 26+16 19 818+26 1840+48 48 1+3 2 1 1 1+4 1 2 " ++
    "8+3 1 1 1 1 1 1 1 1 1 1 1 1 1 1 1 1 1 1 1 1 1 1 1 1 1 1 1 1 1 1 1 1 1 1 1 1 1 1 1 1 1 1 " ++
    "1 1 1 1 1 1 1 8 1 4 31053 1 1 1 1 1 1 1 1 1 1 1 1 1 1 1 1 1 1 1 1 1 1 19 1 1 1 1 1 1 1 1 " ++
    "1 1 1 1 1 135 1 1 1 1 1 1 3 1 1 1 1 1 1 1 1 1 1 1 1 1 1 1 1 1 1 1 1 1 1 1 1 1 1 1 1 1 1 " ++
    "10 1 1+2 1 1 1 1 4 1 2 1 3 1 1 1 1 1 1 1 1 1 1+5 1+5 1 1 1 1 1 1 1 1+4 1 1+2 3 5 1 1 1 " ++
    "24 22315+26 1221+40 136+36 156+11 1+15 1+7 1+2 1770+51 157+22 2874+32 21888+32 26016+26 " ++
    "26+26 26+26 26 1+2 2 2+2 2+4 1+8 26+26 26+2 1+4 2+8 1+7 27+2 1+4 1+5 1 3+7 27+26 26+26 " ++
    "26+26 26+26 26+26 26+26 30+25 33+25 33+25 33+25 33+25 33 4405+34 2062+26 6+26 6+26")]

end FlowEngine.Pattern
