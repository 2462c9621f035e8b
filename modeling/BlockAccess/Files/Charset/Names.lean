import BlockAccess.Text

/-!
# The known character sets

The names by which the system knows character sets, family by family.  Most sets have several: the
number under which the set is registered, the standard that defines it, and shorter forms.  A name
stands here as it is usually written; which spellings are taken for it is said in
`BlockAccess.Files.Charset`.
-/

namespace BlockAccess.Files.Charset

/-- The encodings of Unicode. -/
def unicode : List String :=
  ["UTF-8", "UTF8", "10646-1:1993", "10646-1:1993/UCS4/", "CSUCS4", "ISO-10646", "ISO-10646/UCS2/",
    "ISO-10646/UCS4/", "ISO-10646/UTF-8/", "ISO-10646/UTF8/", "ISO-IR-193", "OSF00010100",
    "OSF00010101", "OSF00010102", "OSF00010104", "OSF00010105", "OSF00010106", "OSF05010001",
    "UCS-2", "UCS-2BE", "UCS-2LE", "UCS-4", "UCS-4BE", "UCS-4LE", "UCS2", "UCS4", "UNICODE",
    "CSUNICODE", "UNICODEBIG", "UNICODELITTLE", "UTF-7", "UTF7", "UTF-7-IMAP", "UTF-16", "UTF16",
    "UTF-16BE", "UTF16BE", "UTF-16LE", "UTF16LE", "UTF-32", "UTF32", "UTF-32BE", "UTF32BE",
    "UTF-32LE", "UTF32LE"]

/-- The names of ASCII. -/
def ascii : List String :=
  ["ANSI_X3.4", "ANSI_X3.4-1968", "ANSI_X3.4-1986", "ASCII", "CP367", "CSASCII", "IBM367",
    "ISO-IR-6", "ISO646-US", "ISO_646.IRV:1991", "OSF00010020", "US", "US-ASCII"]

/-- The national forms of ASCII. -/
def national : List String :=
  ["BS_4730", "CSISO4UNITEDKINGDOM", "GB", "ISO-IR-4", "ISO646-GB", "UK", "CSA_Z243.4-1985-1", "CA",
    "CSA7-1", "CSA_Z243.419851", "CSISO121CANADIAN1", "ISO-IR-121", "ISO646-CA",
    "CSA_Z243.4-1985-2", "CSA7-2", "CSA_Z243.419852", "CSISO122CANADIAN2", "ISO-IR-122",
    "ISO646-CA2", "DIN_66003", "CSISO21GERMAN", "DE", "ISO-IR-21", "ISO646-DE", "DS_2089",
    "CSISO646DANISH", "DK", "DS2089", "ISO646-DK", "ES", "CSISO17SPANISH", "ISO-IR-17", "ISO646-ES",
    "ES2", "CSISO85SPANISH2", "ISO-IR-85", "ISO646-ES2", "GB_1988-80", "CN", "CSISO58GB1988",
    "GB_198880", "ISO-IR-57", "ISO646-CN", "IT", "CSISO15ITALIAN", "ISO-IR-15", "ISO646-IT",
    "JIS_C6220-1969-RO", "CSISO14JISC6220RO", "ISO-IR-14", "ISO646-JP", "JIS_C62201969RO", "JP",
    "JIS_C6229-1984-B", "CSISO92JISC62991984B", "ISO-IR-92", "ISO646-JP-OCR-B", "JIS_C62291984B",
    "JP-OCR-B", "JUS_I.B1.002", "CSISO141JUSIB1002", "ISO-IR-141", "ISO646-YU", "JS", "YU",
    "KSC5636", "CSKSC5636", "ISO646-KR", "MSZ_7795.3", "CSISO86HUNGARIAN", "HU", "ISO-IR-86",
    "ISO646-HU", "NC_NC00-10", "CSISO151CUBA", "CUBA", "ISO-IR-151", "ISO646-CU", "NC_NC00-10:81",
    "NC_NC0010", "NF_Z_62-010", "CSISO69FRENCH", "FR", "ISO-IR-69", "ISO646-FR", "NF_Z_62010",
    "NF_Z_62-010_1973", "CSISO25FRENCH", "ISO-IR-25", "ISO646-FR1", "NF_Z_62-010_(1973)",
    "NF_Z_62010_1973", "NS_4551-1", "CSISO60DANISHNORWEGIAN", "CSISO60NORWEGIAN1", "ISO-IR-60",
    "ISO646-NO", "NO", "NS_45511", "NS_4551-2", "CSISO61NORWEGIAN2", "ISO-IR-61", "ISO646-NO2",
    "NO2", "NS_45512", "PT", "CSISO16PORTUGESE", "ISO-IR-16", "ISO646-PT", "PT2",
    "CSISO84PORTUGUESE2", "ISO-IR-84", "ISO646-PT2", "SEN_850200_B", "CSISO10SWEDISH", "FI",
    "ISO-IR-10", "ISO646-FI", "ISO646-SE", "SE", "SS636127", "SEN_850200_C",
    "CSISO11SWEDISHFORNAMES", "ISO-IR-11", "ISO646-SE2", "SE2"]

/-- The alphabets of ISO 8859. -/
def alphabets : List String :=
  ["ISO-8859-1", "8859_1", "CP819", "CSISOLATIN1", "IBM819", "ISO-IR-100", "ISO8859-1", "ISO88591",
    "ISO_8859-1", "ISO_8859-1:1987", "L1", "LATIN1", "OSF00010001", "ISO-8859-2", "8859_2", "CP912",
    "CSISOLATIN2", "IBM912", "ISO-IR-101", "ISO8859-2", "ISO88592", "ISO_8859-2", "ISO_8859-2:1987",
    "L2", "LATIN2", "OSF00010002", "ISO-8859-3", "8859_3", "CSISOLATIN3", "ISO-IR-109", "ISO8859-3",
    "ISO88593", "ISO_8859-3", "ISO_8859-3:1988", "L3", "LATIN3", "OSF00010003", "ISO-8859-4",
    "8859_4", "CSISOLATIN4", "ISO-IR-110", "ISO8859-4", "ISO88594", "ISO_8859-4", "ISO_8859-4:1988",
    "L4", "LATIN4", "OSF00010004", "ISO-8859-5", "8859_5", "CP915", "CSISOLATINCYRILLIC",
    "CYRILLIC", "IBM915", "ISO-IR-144", "ISO8859-5", "ISO88595", "ISO_8859-5", "ISO_8859-5:1988",
    "OSF00010005", "ISO-8859-6", "8859_6", "ARABIC", "ASMO-708", "CP1089", "CSISOLATINARABIC",
    "ECMA-114", "IBM1089", "ISO-IR-127", "ISO8859-6", "ISO88596", "ISO_8859-6", "ISO_8859-6:1987",
    "OSF00010006", "ISO-8859-7", "8859_7", "CP813", "CSISOLATINGREEK", "ECMA-118", "ELOT_928",
    "GREEK", "GREEK8", "IBM813", "ISO-IR-126", "ISO8859-7", "ISO88597", "ISO_8859-7",
    "ISO_8859-7:1987", "ISO_8859-7:2003", "OSF00010007", "ISO-8859-8", "8859_8", "CP916",
    "CSISOLATINHEBREW", "HEBREW", "IBM916", "ISO-IR-138", "ISO8859-8", "ISO88598", "ISO_8859-8",
    "ISO_8859-8:1988", "OSF00010008", "ISO-8859-9", "8859_9", "CP920", "CSISOLATIN5", "ECMA-128",
    "IBM920", "ISO-IR-148", "ISO8859-9", "ISO88599", "ISO_8859-9", "ISO_8859-9:1989", "L5",
    "LATIN5", "OSF00010009", "TS-5881", "ISO-8859-9E", "ISO8859-9E", "ISO88599E", "ISO_8859-9E",
    "ISO-8859-10", "CSISOLATIN6", "ISO-IR-157", "ISO8859-10", "ISO885910", "ISO_8859-10",
    "ISO_8859-10:1992", "L6", "LATIN6", "OSF0001000A", "ISO-8859-11", "ISO8859-11", "ISO885911",
    "ISO-8859-13", "BALTIC", "ISO-IR-179", "ISO8859-13", "ISO885913", "L7", "LATIN7", "ISO-8859-14",
    "ISO-CELTIC", "ISO-IR-199", "ISO8859-14", "ISO885914", "ISO_8859-14", "ISO_8859-14:1998", "L8",
    "LATIN8", "ISO-8859-15", "ISO-IR-203", "ISO8859-15", "ISO885915", "ISO_8859-15",
    "ISO_8859-15:1998", "LATIN-9", "LATIN9", "ISO-8859-16", "ISO-IR-226", "ISO8859-16", "ISO885916",
    "ISO_8859-16", "ISO_8859-16:2001", "L10", "LATIN10"]

/-- The code pages of Windows. -/
def windows : List String :=
  ["CP1250", "MS-EE", "WINDOWS-1250", "CP1251", "MS-CYRL", "WINDOWS-1251", "CP1252", "MS-ANSI",
    "WINDOWS-1252", "CP1253", "MS-GREEK", "WINDOWS-1253", "CP1254", "MS-TURK", "WINDOWS-1254",
    "CP1255", "MS-HEBR", "WINDOWS-1255", "CP1256", "MS-ARAB", "WINDOWS-1256", "CP1257",
    "WINBALTRIM", "WINDOWS-1257", "CP1258", "WINDOWS-1258"]

/-- Code pages of DOS that are not known by an IBM number. -/
def dos : List String :=
  ["CP737", "CP770", "CP771", "CP772", "CP773", "CP774", "CP775", "CSPC775BALTIC", "IBM775",
    "CP1125", "IBM848", "RUSCII"]

/-- The sets of the Macintosh. -/
def mac : List String :=
  ["CP10007", "MS-MAC-CYRILLIC", "MSMACCYRILLIC", "MAC-CENTRALEUROPE", "CP1282", "MAC-IS", "MACIS",
    "MAC-SAMI", "MAC-UK", "MAC-CYRILLIC", "MACCYRILLIC", "MACUK", "MACUKRAINIAN", "MACINTOSH",
    "CSMACINTOSH", "MAC"]

/-- The sets of other makers of computers. -/
def makers : List String :=
  ["DEC-MCS", "CSDECMCS", "DEC", "DECMCS", "HP-GREEK8", "HPGREEK8", "OSF10010004", "HP-ROMAN8",
    "CSHPROMAN8", "HPROMAN8", "OSF10010001", "R8", "ROMAN8", "HP-ROMAN9", "HPROMAN9", "R9",
    "ROMAN9", "HP-THAI8", "HPTHAI8", "THAI8", "HP-TURKISH8", "HPTURKISH8", "OSF10010006",
    "TURKISH8"]

/-- Cyrillic alphabets. -/
def cyrillic : List String :=
  ["ECMA-CYRILLIC", "CSISO111ECMACYRILLIC", "ECMACYRILLIC", "ISO-IR-111", "GOST_19768-74",
    "CSISO153GOST1976874", "GOST_19768", "GOST_1976874", "ISO-IR-153", "ST_SEV_358-88",
    "INIS-CYRILLIC", "CSISO51INISCYRILLIC", "INISCYRILLIC", "ISO-IR-51", "ISO_5427",
    "CSISO5427CYRILLIC", "ISO-IR-37", "KOI-7", "ISO_5427-EXT", "CSISO5427CYRILLIC1981", "ISO-IR-54",
    "ISO_5427:1981", "ISO_5427EXT", "KOI-8", "KOI8", "KOI8-R", "CSKOI8R", "KOI8R", "KOI8-RU",
    "KOI8-T", "KOI8-U", "KOI8U", "MIK", "PT154", "RK1048", "STRK1048-2002"]

/-- Greek alphabets. -/
def greek : List String :=
  ["GREEK-CCITT", "CSISO150", "CSISO150GREEKCCITT", "GREEKCCITT", "ISO-IR-150", "GREEK7",
    "CSISO88GREEK7", "ISO-IR-88", "GREEK7-OLD", "CSISO18GREEK7OLD", "GREEK7OLD", "ISO-IR-18",
    "ISO_5428", "CSISO5428GREEK", "ISO-IR-55", "ISO_5428:1980", "LATIN-GREEK", "CSISO19LATINGREEK",
    "ISO-IR-19", "LATINGREEK", "LATIN-GREEK-1", "CSISO27LATINGREEK1", "ISO-IR-27", "LATINGREEK1"]

/-- The sets of East Asia. -/
def eastAsian : List String :=
  ["BIG5", "BIG-5", "BIG-FIVE", "BIGFIVE", "CN-BIG5", "CP950", "BIG5HKSCS", "BIG5-HKSCS", "CP932",
    "CSWINDOWS31J", "MS932", "SJIS-OPEN", "SJIS-WIN", "WINDOWS-31J", "CSGB2312", "EUC-CN", "CN-GB",
    "EUCCN", "GB2312", "csGB2312", "EUC-JISX0213", "EUC-JP", "CSEUCPKDFMTJAPANESE", "EUCJP",
    "OSF00030010", "UJIS", "EUC-JP-MS", "EUCJP-MS", "EUCJP-OPEN", "EUCJP-WIN", "EUC-KR", "CSEUCKR",
    "EUCKR", "OSF0004000a", "EUC-TW", "EUCTW", "OSF0005000a", "GB18030", "GBK", "CP936", "GB13000",
    "MS936", "WINDOWS-936", "ISO-2022-CN", "CSISO2022CN", "ISO2022CN", "ISO-2022-CN-EXT",
    "ISO2022CNEXT", "ISO-2022-JP", "CSISO2022JP", "ISO2022JP", "ISO-2022-JP-2", "CSISO2022JP2",
    "ISO2022JP2", "ISO-2022-JP-3", "ISO-2022-KR", "CSISO2022KR", "ISO2022KR", "JOHAB", "CP1361",
    "MSCP1361", "OSF0004000A", "OSF0005000A", "SHIFTJISX0213", "SHIFT_JISX0213", "SJIS",
    "CSSHIFTJIS", "MS_KANJI", "SHIFT-JIS", "SHIFT_JIS", "Shift_JISX0213", "ShiftJISX0213", "UHC",
    "CP949", "MSCP949", "OSF100203B5"]

/-- The national forms of EBCDIC. -/
def ebcdic : List String :=
  ["EBCDIC-AT-DE", "CSEBCDICATDE", "EBCDICATDE", "EBCDIC-AT-DE-A", "CSEBCDICATDEA", "EBCDICATDEA",
    "EBCDIC-CA-FR", "CSEBCDICCAFR", "EBCDICCAFR", "EBCDIC-DK-NO", "CSEBCDICDKNO", "EBCDICDKNO",
    "EBCDIC-DK-NO-A", "CSEBCDICDKNOA", "EBCDICDKNOA", "EBCDIC-ES", "CSEBCDICES", "EBCDICES",
    "EBCDIC-ES-A", "CSEBCDICESA", "EBCDICESA", "EBCDIC-ES-S", "CSEBCDICESS", "EBCDICESS",
    "EBCDIC-FI-SE", "CSEBCDICFISE", "EBCDICFISE", "EBCDIC-FI-SE-A", "CSEBCDICFISEA", "EBCDICFISEA",
    "EBCDIC-FR", "CSEBCDICFR", "EBCDICFR", "EBCDIC-IS-FRISS", "EBCDICISFRISS", "EBCDIC-IT",
    "CSEBCDICIT", "EBCDICIT", "EBCDIC-PT", "CSEBCDICPT", "EBCDICPT", "EBCDIC-UK", "CSEBCDICUK",
    "EBCDICUK", "EBCDIC-US", "CSEBCDICUS", "EBCDICUS"]

/-- The code pages of IBM, by their numbers. -/
def ibm : List String :=
  ["IBM037", "CP037", "CP1070", "CP282", "CSIBM037", "EBCDIC-CP-CA", "EBCDIC-CP-NL", "EBCDIC-CP-US",
    "EBCDIC-CP-WT", "OSF10020025", "IBM038", "CP038", "CSIBM038", "EBCDIC-INT", "IBM256",
    "EBCDIC-INT1", "IBM273", "CP273", "CSIBM273", "OSF10020111", "IBM274", "CP274", "CSIBM274",
    "EBCDIC-BE", "IBM275", "CP275", "CSIBM275", "EBCDIC-BR", "IBM277", "CSIBM277", "EBCDIC-CP-DK",
    "EBCDIC-CP-NO", "OSF10020115", "IBM278", "CP278", "CSIBM278", "EBCDIC-CP-FI", "EBCDIC-CP-SE",
    "OSF10020116", "IBM280", "CP280", "CSIBM280", "EBCDIC-CP-IT", "OSF10020118", "IBM281", "CP281",
    "CSIBM281", "EBCDIC-JP-E", "IBM284", "CP1079", "CP284", "CSIBM284", "EBCDIC-CP-ES",
    "OSF1002011C", "IBM285", "CP285", "CSIBM285", "EBCDIC-CP-GB", "OSF1002011D", "IBM290", "CP290",
    "CSIBM290", "EBCDIC-JP-KANA", "OSF10020122", "IBM297", "CP1081", "CP297", "CSIBM297",
    "EBCDIC-CP-FR", "OSF10020129", "IBM420", "CP420", "CSIBM420", "EBCDIC-CP-AR1", "OSF100201A4",
    "IBM423", "CP423", "CSIBM423", "EBCDIC-CP-GR", "IBM424", "CP424", "CSIBM424", "EBCDIC-CP-HE",
    "OSF100201A8", "IBM437", "437", "CP437", "CSPC8CODEPAGE437", "OSF100201B5", "IBM500", "500",
    "500V1", "CP1084", "CP500", "CSIBM500", "EBCDIC-CP-BE", "EBCDIC-CP-CH", "OSF100201F4", "IBM803",
    "CP803", "CSIBM803", "IBM-803", "IBM850", "850", "CP850", "CSPC850MULTILINGUAL", "OSF10020352",
    "IBM851", "851", "CP851", "CSIBM851", "IBM852", "852", "CP852", "CSPCP852", "OSF10020354",
    "IBM855", "855", "CP855", "CSIBM855", "OSF10020357", "IBM856", "856", "CP856", "CSIBM856",
    "IBM-856", "IBM857", "857", "CP857", "CSIBM857", "OSF10020359", "IBM858", "858", "CP858",
    "CSPC858MULTILINGUAL", "IBM860", "860", "CP860", "CSIBM860", "IBM861", "861", "CP861",
    "CPIBM861", "OSF1002035D", "IBM862", "862", "CP862", "CSPC862LATINHEBREW", "OSF1002035E",
    "IBM863", "863", "CP863", "CSIBM863", "OSF1002035F", "IBM864", "864", "CP864", "CSIBM864",
    "OSF10020360", "IBM865", "865", "CP865", "CSIBM865", "IBM866", "866", "CP866", "CSIBM866",
    "IBM866NAV", "866NAV", "CP866NAV", "IBM868", "CP-AR", "CP868", "CSIBM868", "OSF10020364",
    "IBM869", "869", "CP-GR", "CP869", "CSIBM869", "OSF10020365", "IBM870", "CP870", "CSIBM870",
    "EBCDIC-CP-ROECE", "EBCDIC-CP-YU", "OSF10020366", "IBM871", "CP871", "CSIBM871", "EBCDIC-CP-IS",
    "OSF10020367", "IBM874", "874", "CP874", "WINDOWS-874", "IBM875", "CP875", "EBCDIC-GREEK",
    "OSF1002036B", "IBM880", "CP880", "CSIBM880", "EBCDIC-CYRILLIC", "OSF10020370", "IBM891",
    "CP891", "CSIBM891", "OSF1002037B", "IBM901", "CP901", "CSIBM901", "IBM-901", "IBM902", "CP902",
    "CSIBM902", "IBM-902", "IBM903", "CP903", "CSIBM903", "OSF10020387", "IBM904", "904", "CP904",
    "CSIBM904", "OSF10020388", "IBM905", "CP905", "CSIBM905", "EBCDIC-CP-TR", "IBM918", "CP918",
    "CSIBM918", "EBCDIC-CP-AR2", "OSF10020396", "IBM921", "CP921", "CSIBM921", "IBM-921", "IBM922",
    "CP922", "CSIBM922", "IBM-922", "IBM930", "CP930", "CSIBM930", "IBM-930", "IBM932", "CSIBM932",
    "IBM-932", "IBM933", "CP933", "CSIBM933", "IBM-933", "IBM935", "CP935", "CSIBM935", "IBM-935",
    "IBM937", "CP937", "CSIBM937", "IBM-937", "IBM939", "CP939", "CSIBM939", "IBM-939", "IBM943",
    "CSIBM943", "IBM-943", "IBM1004", "CP1004", "OS2LATIN1", "IBM1008", "CP1008", "CSIBM1008",
    "IBM-1008", "IBM1025", "CP1025", "CSIBM1025", "IBM-1025", "IBM1026", "1026", "CP1026",
    "CSIBM1026", "OSF10020402", "IBM1046", "1046", "CP1046", "IBM-1046", "IBM1047", "1047",
    "CP1047", "IBM-1047", "OSF10020417", "IBM1097", "CP1097", "CSIBM1097", "IBM-1097", "IBM1112",
    "CP1112", "CSIBM1112", "IBM-1112", "IBM1122", "CP1122", "CSIBM1122", "IBM-1122", "IBM1123",
    "CP1123", "CSIBM1123", "IBM-1123", "IBM1124", "CP1124", "CSIBM1124", "IBM-1124", "IBM1129",
    "CP1129", "CSIBM1129", "IBM-1129", "IBM1130", "CP1130", "CSIBM1130", "IBM-1130", "IBM1132",
    "CP1132", "CSIBM1132", "IBM-1132", "IBM1133", "CP1133", "CSIBM1133", "IBM-1133", "IBM1137",
    "CP1137", "CSIBM1137", "IBM-1137", "IBM1140", "CP1140", "CSIBM1140", "IBM-1140", "IBM1141",
    "CP1141", "CSIBM1141", "IBM-1141", "IBM1142", "CP1142", "CSIBM1142", "IBM-1142", "IBM1143",
    "CP1143", "CSIBM1143", "IBM-1143", "IBM1144", "CP1144", "CSIBM1144", "IBM-1144", "IBM1145",
    "CP1145", "CSIBM1145", "IBM-1145", "IBM1146", "CP1146", "CSIBM1146", "IBM-1146", "IBM1147",
    "CP1147", "CSIBM1147", "IBM-1147", "IBM1148", "CP1148", "CSIBM1148", "IBM-1148", "IBM1149",
    "CP1149", "CSIBM1149", "IBM-1149", "IBM1153", "CP1153", "CSIBM1153", "IBM-1153", "IBM1154",
    "CP1154", "CSIBM1154", "IBM-1154", "IBM1155", "CP1155", "CSIBM1155", "IBM-1155", "IBM1156",
    "CP1156", "CSIBM1156", "IBM-1156", "IBM1157", "CP1157", "CSIBM1157", "IBM-1157", "IBM1158",
    "CP1158", "CSIBM1158", "IBM-1158", "IBM1160", "CP1160", "CSIBM1160", "IBM-1160", "IBM1161",
    "CP1161", "CSIBM1161", "IBM-1161", "IBM1162", "CP1162", "CSIBM11621162", "IBM-1162", "IBM1163",
    "CP1163", "CSIBM1163", "IBM-1163", "IBM1164", "CP1164", "CSIBM1164", "IBM-1164", "IBM1166",
    "CP1166", "CSIBM1166", "IBM-1166", "IBM1167", "CP1167", "CSIBM1167", "IBM-1167", "IBM1364",
    "CP1364", "CSIBM1364", "IBM-1364", "IBM1371", "CP1371", "CSIBM1371", "IBM-1371", "IBM1388",
    "CP1388", "CSIBM1388", "IBM-1388", "IBM1390", "CP1390", "CSIBM1390", "IBM-1390", "IBM1399",
    "CP1399", "CSIBM1399", "IBM-1399", "IBM4517", "CP4517", "CSIBM4517", "IBM-4517", "IBM4899",
    "CP4899", "CSIBM4899", "IBM-4899", "IBM4909", "CP4909", "CSIBM4909", "IBM-4909", "IBM4971",
    "CP4971", "CSIBM4971", "IBM-4971", "IBM5347", "CP5347", "CSIBM5347", "IBM-5347", "IBM9030",
    "CP9030", "CSIBM9030", "IBM-9030", "IBM9066", "CP9066", "CSIBM9066", "IBM-9066", "IBM9448",
    "CP9448", "CSIBM9448", "IBM-9448", "IBM12712", "CP12712", "CSIBM12712", "IBM-12712", "IBM16804",
    "CP16804", "CSIBM16804", "IBM-16804"]

/-- Everything else: alphabets of single languages, and sets for libraries and telegraphy. -/
def others : List String :=
  ["ANSI_X3.110", "ANSI_X3.110-1983", "CSA_T500", "CSA_T500-1983", "CSISO99NAPLPS", "ISO-IR-99",
    "NAPLPS", "ARMSCII-8", "ARMSCII8", "ASMO_449", "ARABIC7", "CSISO89ASMO449", "ISO-IR-89",
    "ISO_9036", "BRF", "CSN_369103", "CSISO139CSN369103", "ISO-IR-139", "CWI", "CP-HU", "CWI-2",
    "GEORGIAN-ACADEMY", "GEORGIAN-PS", "IEC_P27-1", "CSISO143IECP271", "IEC_P271", "ISO-IR-143",
    "INIS", "CSISO49INIS", "ISO-IR-49", "INIS-8", "CSISO50INIS8", "INIS8", "ISO-IR-50",
    "ISIRI-3342", "ISIRI3342", "ISO-IR-197", "ISO-IR-209", "ISO_2033", "CSISO2033", "E13B",
    "ISO-IR-98", "ISO_2033-1983", "ISO_6937", "ISO-IR-156", "ISO6937", "ISO_6937:1992",
    "ISO_6937-2", "CSISO90", "ISO-IR-90", "ISO_6937-2:1983", "ISO_69372", "ISO_10367-BOX",
    "CSISO10367BOX", "ISO-IR-155", "ISO_10367BOX", "ISO_11548-1", "ISO/TR_11548-1/", "ISO11548-1",
    "NATS-DANO", "CSNATSDANO", "ISO-IR-9-1", "NATSDANO", "NATS-SEFI", "CSNATSSEFI", "ISO-IR-8-1",
    "NATSSEFI", "T.61-8BIT", "CSISO103T618BIT", "ISO-IR-103", "T.61", "T.618BIT", "TCVN5712-1",
    "TCVN", "TCVN-5712", "TCVN5712-1:1993", "TIS-620", "ISO-IR-166", "TIS620", "TIS620-0",
    "TIS620.2529-1", "TIS620.2533-0", "TSCII", "VISCII", "WIN-SAMI-2", "WINSAMI2", "WS2"]

/-- The names of all the sets. -/
def names : List String :=
  unicode ++ ascii ++ national ++ alphabets ++ windows ++ dos ++ mac ++ makers ++ cyrillic ++ greek
    ++ eastAsian ++ ebcdic ++ ibm ++ others

end BlockAccess.Files.Charset
