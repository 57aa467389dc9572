/-!
# General categories

The general category of every code point, from the first to the last, as a run-length text: a
category of two letters and the length of its run, which is left out if it is one. A tilde stands
before two categories that alternate as many times as the number after them says.
-/

namespace FlowEngine.Text

/-- Runs of general categories, in the order of code points. -/
def categoryRuns : String :=
  "Cc32ZsPo3ScPo3PsPePoSmPoPdPo2Nd10Po2Sm3Po2Lu26PsPoPeSkPcSkLl26PsSmPeSmCc33ZsPoSc4SoPoSkSoLoP" ++
  "iSmCfSoSkSoSmNo2SkLlPo2SkNoLoPfNo3PoLu23SmLu7Ll24SmLl8~LuLl27LuLl2~LuLl7LuLl2~LuLl23Lu2~LlLu" ++
  "2Ll3Lu2LlLuLlLu2LlLu3Ll2Lu4LlLu2LlLu3Ll3Lu2LlLu2~LlLu2LlLu2LlLuLl2LuLlLu2LlLu3LlLuLlLu2Ll2Lo" ++
  "LuLl3Lo4LuLtLlLuLtLlLuLt~LlLu8Ll2~LuLl8LuLl2LuLtLlLuLlLu3~LlLu29Ll7Lu2LlLu2Ll2LuLlLu4~LlLu4L" ++
  "l69Lo2Ll26Lm18Sk4Lm12Sk14Lm5Sk7LmSkLmSk17Mn112~LuLl2LmSkLuLlCn2LmLl3PoLuCn4Sk2LuPoLu3CnLuCnL" ++
  "u2LlLu17CnLu9Ll35LuLl2Lu3Ll3~LuLl11LuLl5LuLlSmLuLlLu2Ll2Lu51Ll48~LuLl17SoMn5Me2~LuLl27Lu2~Ll" ++
  "Lu6Ll2~LuLl48CnLu38Cn2LmPo6Ll41PoPdCn2So2ScCnMn45PdMnPoMn2PoMn2PoMnCn8Lo27Cn4Lo4Po2Cn11Cf6Sm" ++
  "3Po2ScPo2So2Mn11PoCfPo3Lo32LmLo10Mn21Nd10Po4Lo2MnLo99PoLoMn7CfSoMn6Lm2Mn2SoMn4Lo2Nd10Lo3So2L" ++
  "oPo14CnCfLoMnLo30Mn27Cn2Lo89Mn11LoCn14Nd10Lo33Mn9Lm2SoPo3LmCn2MnSc2Lo22Mn4LmMn9LmMn3LmMn5Cn2" ++
  "Po15CnLo25Mn3Cn2PoCnLo11Cn5Lo24SkLo7Cf2Cn5Mn9Lo41LmMn24CfMn32McLo54MnMcMnLoMc3Mn8Mc4MnMc2LoM" ++
  "n7Lo10Mn2Po2Nd10PoLmLo15MnMc2CnLo8Cn2Lo2Cn2Lo22CnLo7CnLoCn3Lo4Cn2MnLoMc3Mn4Cn2Mc2Cn2Mc2MnLoC" ++
  "n8McCn4Lo2CnLo3Mn2Cn2Nd10Lo2Sc2No6SoScLoPoMnCn2Mn2McCnLo6Cn4Lo2Cn2Lo22CnLo7CnLo2CnLo2CnLo2Cn" ++
  "2MnCnMc3Mn2Cn4Mn2Cn2Mn3Cn3MnCn7Lo4CnLoCn7Nd10Mn2Lo3MnPoCn10Mn2McCnLo9CnLo3CnLo22CnLo7CnLo2Cn" ++
  "Lo5Cn2MnLoMc3Mn5CnMn2McCnMc2MnCn2LoCn15Lo2Mn2Cn2Nd10PoScCn7LoMn6CnMnMc2CnLo8Cn2Lo2Cn2Lo22CnL" ++
  "o7CnLo2CnLo5Cn2MnLoMcMnMcMn4Cn2Mc2Cn2Mc2MnCn7Mn2McCn4Lo2CnLo3Mn2Cn2Nd10SoLoNo6Cn10MnLoCnLo6C" ++
  "n3Lo3CnLo4Cn3Lo2CnLoCnLo2Cn3Lo2Cn3Lo3Cn3Lo12Cn4Mc2MnMc2Cn3Mc3CnMc3MnCn2LoCn6McCn14Nd10No3So6" ++
  "ScSoCn5MnMc3MnLo8CnLo3CnLo23CnLo16Cn2MnLoMn3Mc4CnMn3CnMn4Cn7Mn2CnLo3CnLo2Cn2Lo2Mn2Cn2Nd10Cn7" ++
  "PoNo7SoLoMnMc2PoLo8CnLo3CnLo23CnLo10CnLo5Cn2MnLoMcMnMc5CnMnMc2CnMc2Mn2Cn7Mc2Cn5Lo3CnLo2Mn2Cn" ++
  "2Nd10CnLo2McCn12Mn2Mc2Lo9CnLo3CnLo41Mn2LoMc3Mn4CnMc3CnMc3MnLoSoCn4Lo3McNo7Lo3Mn2Cn2Nd10No9So" ++
  "Lo6CnMnMc2CnLo18Cn3Lo24CnLo9CnLoCn2Lo7Cn3MnCn4Mc3Mn3CnMnCnMc8Cn6Nd10Cn2Mc2PoCn12Lo48MnLo2Mn7" ++
  "Cn4ScLo6LmMn8PoNd10Po2Cn37Lo2CnLoCnLo5CnLo24CnLoCnLo10MnLo2Mn9LoCn2Lo5CnLmCnMn7CnNd10Cn2Lo4C" ++
  "n32LoSo3Po15SoPoSo3Mn2So6Nd10No10~SoMn3~PsPe2Mc2Lo8CnLo36Cn4Mn14McMn5PoMn2Lo5Mn11CnMn36CnSo8" ++
  "MnSo6CnSo2Po5So4Po2Cn37Lo43Mc2Mn4McMn6McMn2Mc2Mn2LoNd10Po6Lo6Mc2Mn2Lo4Mn3LoMc3Lo2Mc7Lo3Mn4Lo" ++
  "13MnMc2Mn2Mc6MnLoMcNd10Mc3MnSo2Lu38CnLuCn5LuCn2Ll43PoLmLl3Lo329CnLo4Cn2Lo7CnLoCnLo4Cn2Lo41Cn" ++
  "Lo4Cn2Lo33CnLo4Cn2Lo7CnLoCnLo4Cn2Lo15CnLo57CnLo4Cn2Lo67Cn2Mn3Po9No20Cn3Lo16So10Cn6Lu86Cn2Ll6" ++
  "Cn2PdLo620SoPoLo17ZsLo26PsPeCn3Lo75Po3Nl3Lo8Cn7Lo18Mn3McCn9Lo19Mn2McPo2Cn9Lo18Mn2Cn12Lo13CnL" ++
  "o3CnMn2Cn12Lo52Mn2McMn7Mc8MnMc2Mn11Po3LmPo3ScLoMnCn2Nd10Cn6No10Cn6Po6PdPo4Mn3CfMnNd10Cn6Lo35" ++
  "LmLo53Cn7Lo5Mn2Lo34MnLoCn5Lo70Cn10Lo31CnMn3Mc4Mn2Mc3Cn4Mc2MnMc6Mn3Cn4SoCn3Po2Nd10Lo30Cn2Lo5C" ++
  "n11Lo44Cn4Lo26Cn6Nd10NoCn3So34Lo23Mn2Mc2MnCn2Po2Lo53McMnMcMn7CnMnMcMnMc2Mn8Mc6Mn10Cn2MnNd10C" ++
  "n6Nd10Cn6Po7LmPo6Cn2Mn14MeMn31Cn2Mn12Cn20Mn4McLo47MnMcMn5McMnMc5MnMc2Lo8CnPo2Nd10Po7So10Mn9S" ++
  "o9Po3Mn2McLo30McMn4Mc2Mn2McMn3Lo2Nd10Lo44MnMcMn2Mc3MnMcMn3Mc2Cn8Po4Lo36Mc8Mn8Mc2Mn2Cn3Po5Nd1" ++
  "0Cn3Lo3Nd10Lo30Lm6Po2Ll9LuLlCn5Lu43Cn2Lu3Po8Cn8Mn3PoMn13McMn7Lo4MnLo6MnLo2McMn2LoCn5Ll44Lm63" ++
  "Ll13LmLl34Lm37Mn64~LuLl74LuLl9~LuLl48LuLl9Lu8Ll6Cn2Lu6Cn2Ll8Lu8Ll8Lu8Ll6Cn2Lu6Cn2Ll8~CnLu4Ll" ++
  "8Lu8Ll14Cn2Ll8Lt8Ll8Lt8Ll8Lt8Ll5CnLl2Lu4LtSkLlSk3Ll3CnLl2Lu4LtSk3Ll4Cn2Ll2Lu4CnSk3Ll8Lu5Sk3C" ++
  "n2Ll3CnLl2Lu4LtSk2CnZs11Cf5Pd6Po2PiPfPsPi2PfPsPiPo8ZlZpCf5ZsPo9PiPfPo4Pc2Po3SmPsPePo11SmPoPc" ++
  "Po10ZsCf5CnCf10NoLmCn2No6Sm3PsPeLmNo10Sm3PsPeCnLm13Cn3Sc34Cn14Mn13Me4MnMe3Mn12Cn15So2LuSo4Lu" ++
  "So2LlLu3Ll2Lu3LlSoLuSo2SmLu5So6~LuSo3Lu4SoLlLu4LlLo4LlSo2Ll2Lu2Sm5LuLl4SoSmSo2LlSoNo16Nl35Lu" ++
  "LlNl4NoSo2Cn4Sm5So5Sm2So4SmSo2SmSo2SmSo7SmSo31Sm2So2SmSoSmSo31Sm268So8~PsPe2So20Sm2So7PsPeSo" ++
  "81SmSo30Sm25So40Sm6So72Cn22So11Cn21No60So78No22So183SmSo9SmSo54Sm8So111SmSo248~PsPe7No30So44" ++
  "Sm5PsPeSm31~PsPe5Sm16So256Sm131~PsPe11Sm63~PsPe2Sm32PsPeSm258So48Sm21So2Sm6So39Cn2So138Lu48L" ++
  "l48LuLlLu3Ll2~LuLl3Lu4LlLuLl2LuLl6Lm2Lu3~LlLu49Ll2So6~LuLl2Mn3LuLlCn5Po4NoPo2Ll38CnLlCn5LlCn" ++
  "2Lo56Cn7LmPoCn14MnLo23Cn9Lo7CnLo7CnLo7CnLo7CnLo7CnLo7CnLo7CnLo7CnMn32Po2~PiPf2Po3PiPfPoPiPfP" ++
  "o9PdPo2PdPoPiPfPo2PiPf~PsPe4Po5LmPo10Pd2Po4PdPoPsPo13So2Po3~PsPe4PdCn34So26CnSo89Cn12So214Cn" ++
  "26So16ZsPo3SoLmLoNl~PsPe5So2~PsPe4PdPsPe2SoNl9Mn4Mc2PdLm5So2Nl3LmLoPoSo2CnLo86Cn2Mn2Sk2Lm2Lo" ++
  "PdLo90PoLm3LoCn5Lo43CnLo94CnSo2No4So10Lo32So38Cn9SoLo16So31CnNo10So30No8SoNo15So32No10So39No" ++
  "15So320Lo6592So64Lo21013LmLo1143Cn3So55Cn9Lo40Lm6Po2Lo268LmPo3Lo16Nd10Lo2Cn20~LuLl23LoMnMe3P" ++
  "oMn10PoLm~LuLl14Lm2Mn2Lo70Nl10Mn2Po6Cn8Sk23Lm9Sk2~LuLl6LuLl3~LuLl31LmLl8~LuLl2Lu2~LlLu4LlLmS" ++
  "k2~LuLl2LoLuLlLuLl3~LuLl10Lu5LlLu5~LlLu7LlLu4LlLuLlLu2~LlLu8Cn20Lm4LuLlLoLm2LlLo7MnLo3MnLo4M" ++
  "nLo23Mc2Mn2McSo4MnCn3No6So2ScSoCn6Lo52Po4Cn8Mc2Lo50Mc16Mn2Cn8Po2Nd10Cn6Mn18Lo6Po3LoPoLo2MnNd" ++
  "10Lo28Mn8Po2Lo23Mn11Mc2Cn11PoLo29Cn3Mn3McLo47MnMc2Mn4Mc2Mn2Mc3Po13CnLmNd10Cn4Po2Lo5MnLmLo9Nd" ++
  "10Lo5CnLo41Mn6Mc2Mn2Mc2Mn2Cn9Lo3MnLo8MnMcCn2Nd10Cn2Po4Lo16LmLo6So3LoMcMnMcLo50MnLoMn3Lo2Mn2L" ++
  "o5Mn2LoMnLoCn24Lo2LmPo2Lo11McMn2Mc2Po2LoLm2McMnCn10Lo6Cn2Lo6Cn2Lo6Cn9Lo7CnLo7CnLl43SkLm4Ll9L" ++
  "mSk2Cn4Ll80Lo35Mc2MnMc2MnMc2PoMcMnCn2Nd10Cn6Lo11172Cn12Lo23Cn4Lo49Cn4Cs2048Co6400Lo366Cn2Lo1" ++
  "06Cn38Ll7Cn12Ll5Cn5LoMnLo10SmLo13CnLo5CnLoCnLo2CnLo2CnLo108Sk17So16Lo363PePsSo16Lo64So2Lo54S" ++
  "o8Cn32Lo12ScSo3Mn16Po7PsPePoCn6Mn16PoPd2Pc2~PsPe8Po2PsPePo4Pc3Po3CnPo4Pd~PsPe3Po3SmPdSm3CnPo" ++
  "ScPo2Cn4Lo5CnLo135Cn2CfCnPo3ScPo3PsPePoSmPoPdPo2Nd10Po2Sm3Po2Lu26PsPoPeSkPcSkLl26PsSmPeSmPsP" ++
  "ePoPsPePo2Lo10LmLo45Lm2Lo31Cn3Lo6Cn2Lo6Cn2Lo6Cn2Lo3Cn3Sc2SmSkSoSc2CnSoSm4So2Cn10Cf3So2Cn2Lo1" ++
  "2CnLo26CnLo19CnLo2CnLo15Cn2Lo14Cn34Lo123Cn5Po3Cn4No45Cn3So9Nl53No4So17No2So3CnSo13Cn3SoCn47S" ++
  "o45MnCn130Lo29Cn3Lo49Cn15MnNo27Cn4Lo32No4Cn9Lo20NlLo8NlCn5Lo38Mn5Cn5Lo30CnPoLo36Cn4Lo8PoNl5C" ++
  "n42Lu40Ll40Lo78Cn2Nd10Cn6Lu36Cn4Ll36Cn4Lo40Cn8Lo52Cn11PoLu11CnLu15CnLu7CnLu2CnLl11CnLl15CnLl" ++
  "7CnLl2Cn3Lo52Cn12Lo311Cn9Lo22Cn10Lo8Cn24Lm6CnLm42CnLm9Cn69Lo6Cn2LoCnLo44CnLo2Cn3LoCn2Lo23CnP" ++
  "oNo8Lo23So2No7Lo31Cn8No9Cn48Lo19CnLo2Cn5No5Lo22No6Cn3PoLo26Cn5PoLo26Cn38Lo56Cn4No2Lo2No16Cn2" ++
  "No46LoMn3CnMn2Cn5Mn4Lo4CnLo3CnLo29Cn2Mn3Cn4MnNo9Cn7Po9Cn7Lo29No2PoLo29No3Cn32Lo8SoLo28Mn2Cn4" ++
  "No5Po7Cn9Lo54Cn3Po7Lo22Cn2No8Lo19Cn5No8Lo18Cn7Po4Cn12No7Cn80Lo73Cn55Lu51Cn13Ll51Cn7No6Lo36Mn" ++
  "4Cn8Nd10Cn6Nd10Lo4LmLoLu22Cn3Mn5PdLmLl22Cn8Sm2Cn208No31CnLo42CnMn2PdCn2Lo2Cn16Lo3LmLo2Cn8PoS" ++
  "o8Cn33Mn6Lo29No10LoCn8Lo22Mn11No4Po5Cn22Lo18Mn4Po4Cn38Lo21No7Cn20Lo23Cn9McMnMcLo53Mn15Po7Cn4" ++
  "No20Nd10MnLo2Mn2LoCn9Mn3McLo45Mc3Mn4Mc2Mn2Po2CfPo4MnCn10CfCn2Lo25Cn7Nd10Cn6Mn3Lo36Mn5McMn8Cn" ++
  "Nd10Po4LoMc2LoCn8Lo35MnPo2LoCn9Mn2McLo48Mc3Mn9Mc2Lo4Po4Mn4PoMcMnNd10LoPoLoPo3CnNo20Cn11Lo18C" ++
  "nLo25Mc3Mn3Mc2MnMcMn2Po6MnLo2MnCn62Lo7CnLoCnLo4CnLo15CnLo10PoCn6Lo47MnMc3Mn8Cn5Nd10Cn6Mn2Mc2" ++
  "CnLo8Cn2Lo2Cn2Lo22CnLo7CnLo2CnLo5CnMn2LoMc2MnMc4Cn2Mc2Cn2Mc3Cn2LoCn6McCn5Lo5Mc2Cn2Mn7Cn3Mn5C" ++
  "n11Lo10CnLoCn2LoCnLo38CnLoMc3Mn6CnMcCn2McCnMc4CnMc2MnMc~MnLo2Po2CnPo2Cn8Mn2Cn29Lo53Mc3Mn8Mc2" ++
  "Mn3McMnLo4Po5Nd10Po2CnPoMnLo3Cn30Lo48Mc3Mn6McMnMc4Mn2McMn2Lo2PoLoCn8Nd10Cn166Lo47Mc3Mn4Cn2Mc" ++
  "4Mn2McMn2Po23Lo4Mn2Cn34Lo48Mc3Mn8Mc2MnMcMn2Po3LoCn11Nd10Cn6Po13Cn19Lo43MnMcMnMc2Mn6McMnLoPoC" ++
  "n6Nd10Cn6Nd20Cn28Lo27Cn2MnMcMnMc2Mn4McMn5Cn4Nd10No2Po3SoLo7Cn185Lo44Mc3Mn9McMn2PoCn100Lu32Ll" ++
  "32Nd10No9Cn12Lo8Cn2LoCn2Lo8CnLo2CnLo24Mc6CnMc2Cn2Mn2McMn~LoMc2MnPo3Cn9Nd10Cn70Lo8Cn2Lo39Mc3M" ++
  "n4Cn2Mn2Mc4MnLoPoLoMcCn27LoMn10Lo40Mn6McLoMn4Po8MnCn8LoMn6Mc2Mn3Lo46Mn13McMn2Po3LoPo5Cn13Lo7" ++
  "3Cn7Po10Cn86MnMcMn3McMnMcCn88Lo33PoCn14Nd10Cn6Lo9CnLo37McMn7CnMn6McMnLoPo5Cn10Nd10No19Cn3Po2" ++
  "Lo30Cn2Mn22CnMcMn7McMn2McMn2Cn73Lo7CnLo2CnLo38Mn6Cn3MnCnMn2CnMn7LoMnCn8Nd10Cn6Lo6CnLo2CnLo32" ++
  "Mc5CnMn2CnMc2MnMcMnLoCn7Nd10Cn6Lo41LmLo2Cn4Nd10Cn246Lo19Mn2Mc2Po2Cn7Mn2LoMcLo13CnLo34Mc2Mn5C" ++
  "n3Mc2MnMcMnPo13Nd10MnCn85LoCn15No21So8Sc4So17Cn13PoLo922Cn102Nl111CnPo5Cn11Lo196Cn2636Lo97Po" ++
  "2Cn13Lo1072Cf16MnLo6Mn15Cn10Lo3995Cn5Lo583Cn6841Lo30Mn12Mc3Mn3Nd10Cn1734Lo569Cn7Lo31CnNd10Cn" ++
  "4Po2Lo79CnNd10Cn6Lo30Cn2Mn5PoCn10Lo48Mn7Po5So4Lm4PoSoCn10Nd10CnNo7CnLo21Cn5Lo19Cn432Lm3Lo40L" ++
  "m2Po3Nd10Cn198Lu32Ll32No23Po4Cn5Lu25Cn2Ll25Cn44Lo75Cn4MnLoMc55Cn7Mn4Lm13Cn64Lm2PoLmMnCn11Mc2" ++
  "Lm2Nl3Cn9Lo7382Cn41Lo32Cn97Lo115Cn8701Lm4CnLm7CnLm2CnLo291Cn15LoCn29Lo3Cn2LoCn14Lo4Cn8Lo396C" ++
  "n2308Lo107Cn5Lo13Cn3Lo9Cn7Lo10Cn2SoMn2PoCf4Cn3932So240Nd10So3Cn3So436Cn6So23Cn15So16SmCn15Mn" ++
  "46Cn2Mn23Cn9So116Cn60So246Cn10So39Cn2So60Mc2Mn3So3Mc6Cf8Mn8So2Mn7So30Mn4So61Cn21So66Mn3SoCn1" ++
  "22No20Cn12No20Cn12So87Cn9No25Cn135Lu26Ll26Lu26Ll7CnLl18Lu26Ll26LuCnLu2Cn2LuCn2Lu2Cn2Lu4CnLu8" ++
  "Ll4CnLlCnLl7CnLl11Lu26Ll26Lu2CnLu4Cn2Lu8CnLu7CnLl26Lu2CnLu4CnLu5CnLuCn3Lu7CnLl26Lu26Ll26Lu26" ++
  "Ll26Lu26Ll26Lu26Ll26Lu26Ll26Lu26Ll28Cn2Lu25SmLl25SmLl6Lu25SmLl25SmLl6Lu25SmLl25SmLl6Lu25SmLl" ++
  "25SmLl6Lu25SmLl25SmLl6LuLlCn2Nd50So512Mn55So4Mn50So8MnSo14MnSo2Po5Cn15Mn5CnMn15Cn1104Ll10LoL" ++
  "l20Cn6Ll6Cn213Mn7CnMn17Cn2Mn7CnMn2CnMn5Cn5Lm62Cn33MnCn112Lo45Cn3Mn7Lm7Cn2Nd10Cn4LoSoCn320Lo3" ++
  "0MnCn17Lo44Mn4Nd10Cn5ScCn464Lo27LmMn4Nd10Cn214Lo30Mn2LoNd10Cn4PoCn192Lo31CnLo3MnLo2MnLo7Mn2L" ++
  "o5MnCn8LoLmCn224Lo7CnLo4CnLo2CnLo15CnLo197Cn2No9Mn7Cn41Lu34Ll34Mn7LmCn4Nd10Cn4Po2Cn785No59So" ++
  "No3ScNo4Cn76No45SoNo15Cn194Lo4CnLo27CnLo2CnLoCn2LoCnLo10CnLo4~CnLo2Cn6LoCn4~LoCn3Lo3CnLo2CnL" ++
  "oCn2~LoCn5Lo2CnLoCn2Lo4CnLo7CnLo4CnLo4CnLoCnLo10CnLo17Cn5Lo3CnLo5CnLo17Cn52Sm2Cn270So44Cn4So" ++
  "100Cn12So15Cn2So15CnSo15CnSo37Cn10No13So161Cn56So29Cn13So44Cn4So9Cn7So2Cn14So6Cn154So251Sk5S" ++
  "o729Cn3So17Cn3So13Cn3So218Cn6So12Cn4SoCn15So12Cn4So56Cn8So10Cn6So40Cn8So30Cn2So12Cn4So2Cn14S" ++
  "m9Cn39So344Cn8So14Cn2So13Cn3So11Cn3So57CnSoCn4So16Cn2So12Cn4So10Cn7So147CnSo92Nd10SoCn1029Lo" ++
  "42720Cn32Lo4382Cn2Lo5774Cn2Lo7473Cn15Lo622Cn2466Lo542Cn1506Lo4939Cn5Lo8490Cn707463CfCn30Cf96" ++
  "Cn128Mn240Cn65040Co65534Cn2Co65534Cn2"

end FlowEngine.Text
