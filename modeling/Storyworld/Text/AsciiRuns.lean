/-! What compatibility decomposition keeps in ASCII, as of Unicode 14. -/

namespace Storyworld

/-- Runs of consecutive code points whose compatibility decomposition keeps one ASCII character:
the first code point and the characters kept. -/
def asciiRuns : List (Nat × String) := [
  (0xa0, " "), (0xa8, " "), (0xaa, "a"), (0xaf, " "), (0xb2, "23 "), (0xb8, " 1o"),
  (0xc0, "AAAAAA"), (0xc7, "CEEEEIIII"), (0xd1, "NOOOOO"), (0xd9, "UUUUY"), (0xe0, "aaaaaa"),
  (0xe7, "ceeeeiiii"), (0xf1, "nooooo"), (0xf9, "uuuuy"), (0xff, "yAaAaAaCcCcCcCcDd"),
  (0x112, "EeEeEeEeEeGgGgGgGgHh"), (0x128, "IiIiIiIiI"), (0x134, "JjKk"), (0x139, "LlLlLlLl"),
  (0x143, "NnNnNnn"), (0x14c, "OoOoOo"), (0x154, "RrRrRrSsSsSsSsTtTt"),
  (0x168, "UuUuUuUuUuUuWwYyYZzZzZzs"), (0x1a0, "Oo"), (0x1af, "Uu"), (0x1cd, "AaIiOoUuUuUuUuUu"),
  (0x1de, "AaAa"), (0x1e6, "GgKkOoOo"), (0x1f0, "j"), (0x1f4, "Gg"), (0x1f8, "NnAa"),
  (0x200, "AaAaEeEeIiIiOoOoRrRrUuUuSsTt"), (0x21e, "Hh"), (0x226, "AaEeOoOoOoOoYy"),
  (0x2b0, "h"), (0x2b2, "jr"), (0x2b7, "wy"), (0x2d8, "      "), (0x2e1, "lsx"), (0x37a, " "),
  (0x37e, ";"), (0x384, "  "), (0x1d2c, "A"), (0x1d2e, "B"), (0x1d30, "DE"),
  (0x1d33, "GHIJKLMN"), (0x1d3c, "O"), (0x1d3e, "PRTUWa"), (0x1d47, "bde"), (0x1d4d, "g"),
  (0x1d4f, "km"), (0x1d52, "o"), (0x1d56, "ptu"), (0x1d5b, "v"), (0x1d62, "iruv"), (0x1d9c, "c"),
  (0x1da0, "f"), (0x1dbb, "z"),
  (0x1e00, "AaBbBbBbCcDdDdDdDdDdEeEeEeEeEeFfGgHhHhHhHhHhIiIiKkKkKkLlLlLlLlMm"),
  (0x1e40, "MmMmNnNnNnNnOoOoOoOoPpPpRrRrRrRrSsSsSsSsSsTtTtTtTtUuUuUuUuUuVvVv"),
  (0x1e80, "WwWwWwWwWwXxXxYyZzZzZzhtwyas"),
  (0x1ea0, "AaAaAaAaAaAaAaAaAaAaAaAaEeEeEeEeEeEeEeEeIiIiOoOoOoOoOoOoOoOoOoOo"),
  (0x1ee0, "OoOoUuUuUuUuUuUuUuYyYyYyYy"), (0x1fbd, " "), (0x1fbf, "   "), (0x1fcd, "   "),
  (0x1fdd, "   "), (0x1fed, "  \x60"), (0x1ffd, "  "), (0x2000, "           "), (0x2017, " "),
  (0x2024, "."), (0x202f, " "), (0x203e, " "), (0x205f, " "), (0x2070, "0i"),
  (0x2074, "456789+"), (0x207c, "=()n0123456789+"), (0x208c, "=()"), (0x2090, "aeox"),
  (0x2095, "hklmnpst"), (0x2102, "CC"), (0x2109, "FgHHHh"), (0x2110, "IILl"), (0x2115, "N"),
  (0x2119, "PQRRR"), (0x2124, "Z"), (0x2128, "Z"), (0x212a, "KABC"), (0x212f, "eEF"),
  (0x2133, "Mo"), (0x2139, "i"), (0x2145, "Ddeij"), (0x215f, "1I"), (0x2164, "V"), (0x2169, "X"),
  (0x216c, "LCDMi"), (0x2174, "v"), (0x2179, "x"), (0x217c, "lcdm"), (0x2260, "="),
  (0x226e, "<>"), (0x2460, "123456789"),
  (0x24b6, "ABCDEFGHIJKLMNOPQRSTUVWXYZabcdefghijklmnopqrstuvwxyz0"), (0x2c7c, "jV"),
  (0x3000, " "), (0x309b, "  "), (0x32c0, "123456789"), (0x3358, "0123456789"), (0x3382, "A"),
  (0x338c, "Fg"), (0x3395, "l"), (0x339b, "m"), (0x33b2, "s"), (0x33b6, "V"), (0x33bc, "W"),
  (0x33c0, "kM"), (0x33e0, "123456789"), (0xa7f2, "CFQ"), (0xfb29, "+"), (0xfc5e, "      "),
  (0xfdfb, " "), (0xfe10, ","), (0xfe13, ":;!?"), (0xfe33, "__()\x7b\x7d"),
  (0xfe47, "[]    ___,"), (0xfe52, "."), (0xfe54, ";:?!"), (0xfe59, "()\x7b\x7d"),
  (0xfe5f, "#&*+-<>="), (0xfe68, "\\$%@"), (0xfe70, " "), (0xfe72, " "), (0xfe74, " "),
  (0xfe76, " "), (0xfe78, " "), (0xfe7a, " "), (0xfe7c, " "), (0xfe7e, " "),
  (0xff01, "!\x22#$%&'()*+,-./0123456789:;<=>?@ABCDEFGHIJKLMNOPQRSTUVWXYZ[\\]^_\x60"),
  (0xff41, "abcdefghijklmnopqrstuvwxyz\x7b|\x7d~"), (0xffe3, " "), (0x107a5, "q"),
  (0x1d400, "ABCDEFGHIJKLMNOPQRSTUVWXYZabcdefghijklmnopqrstuvwxyzABCDEFGHIJKL"),
  (0x1d440, "MNOPQRSTUVWXYZabcdefg"),
  (0x1d456, "ijklmnopqrstuvwxyzABCDEFGHIJKLMNOPQRSTUVWXYZabcdefghijklmnopqrst"),
  (0x1d496, "uvwxyzA"), (0x1d49e, "CD"), (0x1d4a2, "G"), (0x1d4a5, "JK"), (0x1d4a9, "NOPQ"),
  (0x1d4ae, "STUVWXYZabcd"), (0x1d4bb, "f"), (0x1d4bd, "hijklmn"),
  (0x1d4c5, "pqrstuvwxyzABCDEFGHIJKLMNOPQRSTUVWXYZabcdefghijklmnopqrstuvwxyzA"), (0x1d505, "B"),
  (0x1d507, "DEFG"), (0x1d50d, "JKLMNOPQ"), (0x1d516, "STUVWXY"),
  (0x1d51e, "abcdefghijklmnopqrstuvwxyzAB"), (0x1d53b, "DEFG"), (0x1d540, "IJKLM"),
  (0x1d546, "O"), (0x1d54a, "STUVWXY"),
  (0x1d552, "abcdefghijklmnopqrstuvwxyzABCDEFGHIJKLMNOPQRSTUVWXYZabcdefghijkl"),
  (0x1d592, "mnopqrstuvwxyzABCDEFGHIJKLMNOPQRSTUVWXYZabcdefghijklmnopqrstuvwx"),
  (0x1d5d2, "yzABCDEFGHIJKLMNOPQRSTUVWXYZabcdefghijklmnopqrstuvwxyzABCDEFGHIJ"),
  (0x1d612, "KLMNOPQRSTUVWXYZabcdefghijklmnopqrstuvwxyzABCDEFGHIJKLMNOPQRSTUV"),
  (0x1d652, "WXYZabcdefghijklmnopqrstuvwxyzABCDEFGHIJKLMNOPQRSTUVWXYZabcdefgh"),
  (0x1d692, "ijklmnopqrstuvwxyz"),
  (0x1d7ce, "01234567890123456789012345678901234567890123456789"), (0x1f12a, "SCR"),
  (0x1f130, "ABCDEFGHIJKLMNOPQRSTUVWXYZ"), (0x1fbf0, "0123456789")]

/-- Runs of consecutive code points whose compatibility decomposition keeps several ASCII
characters: the first code point and the texts kept. -/
def asciiSequences : List (Nat × List String) := [
  (0xbc, ["14", "12", "34"]), (0x132, ["IJ", "ij"]),
  (0x1c4, ["DZ", "Dz", "dz", "LJ", "Lj", "lj", "NJ", "Nj", "nj"]), (0x1f1, ["DZ", "Dz", "dz"]),
  (0x2025, ["..", "..."]), (0x203c, ["!!"]), (0x2047, ["??", "?!", "!?"]), (0x20a8, ["Rs"]),
  (0x2100, ["a/c", "a/s"]), (0x2105, ["c/o", "c/u"]), (0x2116, ["No"]),
  (0x2120, ["SM", "TEL", "TM"]), (0x213b, ["FAX"]),
  (0x2150, ["17", "19", "110", "13", "23", "15", "25", "35", "45", "16"]),
  (0x215a, ["56", "18", "38", "58", "78"]), (0x2161, ["II", "III", "IV"]),
  (0x2165, ["VI", "VII", "VIII", "IX"]), (0x216a, ["XI", "XII"]), (0x2171, ["ii", "iii", "iv"]),
  (0x2175, ["vi", "vii", "viii", "ix"]), (0x217a, ["xi", "xii"]), (0x2189, ["03"]),
  (0x2469, ["10", "11", "12", "13", "14", "15", "16", "17", "18", "19"]),
  (0x2473, ["20", "(1)", "(2)", "(3)", "(4)", "(5)", "(6)", "(7)", "(8)", "(9)"]),
  (0x247d, ["(10)", "(11)", "(12)", "(13)", "(14)", "(15)", "(16)", "(17)", "(18)", "(19)"]),
  (0x2487, ["(20)", "1.", "2.", "3.", "4.", "5.", "6.", "7.", "8.", "9."]),
  (0x2491, ["10.", "11.", "12.", "13.", "14.", "15.", "16.", "17.", "18.", "19."]),
  (0x249b, ["20.", "(a)", "(b)", "(c)", "(d)", "(e)", "(f)", "(g)", "(h)", "(i)"]),
  (0x24a5, ["(j)", "(k)", "(l)", "(m)", "(n)", "(o)", "(p)", "(q)", "(r)", "(s)"]),
  (0x24af, ["(t)", "(u)", "(v)", "(w)", "(x)", "(y)", "(z)"]), (0x2a74, ["::=", "==", "==="]),
  (0x3200, ["()", "()", "()", "()", "()", "()", "()", "()", "()", "()"]),
  (0x320a, ["()", "()", "()", "()", "()", "()", "()", "()", "()", "()"]),
  (0x3214, ["()", "()", "()", "()", "()", "()", "()", "()", "()", "()"]), (0x321e, ["()"]),
  (0x3220, ["()", "()", "()", "()", "()", "()", "()", "()", "()", "()"]),
  (0x322a, ["()", "()", "()", "()", "()", "()", "()", "()", "()", "()"]),
  (0x3234, ["()", "()", "()", "()", "()", "()", "()", "()", "()", "()"]),
  (0x323e, ["()", "()", "()", "()", "()", "()"]),
  (0x3250, ["PTE", "21", "22", "23", "24", "25", "26", "27", "28", "29"]),
  (0x325a, ["30", "31", "32", "33", "34", "35"]),
  (0x32b1, ["36", "37", "38", "39", "40", "41", "42", "43", "44", "45"]),
  (0x32bb, ["46", "47", "48", "49", "50"]),
  (0x32c9, ["10", "11", "12", "Hg", "erg", "eV", "LTD"]),
  (0x3362, ["10", "11", "12", "13", "14", "15", "16", "17", "18", "19"]),
  (0x336c, ["20", "21", "22", "23", "24", "hPa", "da", "AU", "bar", "oV"]),
  (0x3376, ["pc", "dm", "dm2", "dm3", "IU"]), (0x3380, ["pA", "nA"]),
  (0x3383, ["mA", "kA", "KB", "MB", "GB", "cal", "kcal", "pF", "nF"]),
  (0x338e, ["mg", "kg", "Hz", "kHz", "MHz", "GHz", "THz"]),
  (0x3396, ["ml", "dl", "kl", "fm", "nm"]),
  (0x339c, ["mm", "cm", "km", "mm2", "cm2", "m2", "km2", "mm3", "cm3", "m3"]),
  (0x33a6, ["km3", "ms", "ms2", "Pa", "kPa", "MPa", "GPa", "rad", "rads", "rads2"]),
  (0x33b0, ["ps", "ns"]), (0x33b3, ["ms", "pV", "nV"]), (0x33b7, ["mV", "kV", "MV", "pW", "nW"]),
  (0x33bd, ["mW", "kW", "MW"]),
  (0x33c2, ["a.m.", "Bq", "cc", "cd", "Ckg", "Co.", "dB", "Gy", "ha", "HP"]),
  (0x33cc, ["in", "KK", "KM", "kt", "lm", "ln", "log", "lx", "mb", "mil"]),
  (0x33d6, ["mol", "PH", "p.m.", "PPM", "PR", "sr", "Sv", "Wb", "Vm", "Am"]),
  (0x33e9, ["10", "11", "12", "13", "14", "15", "16", "17", "18", "19"]),
  (0x33f3, ["20", "21", "22", "23", "24", "25", "26", "27", "28", "29"]),
  (0x33fd, ["30", "31", "gal"]), (0xfb00, ["ff", "fi", "fl", "ffi", "ffl", "st", "st"]),
  (0xfdfa, ["   "]), (0xfe19, ["..."]), (0xfe30, [".."]),
  (0x1f100, ["0.", "0,", "1,", "2,", "3,", "4,", "5,", "6,", "7,", "8,"]), (0x1f10a, ["9,"]),
  (0x1f110, ["(A)", "(B)", "(C)", "(D)", "(E)", "(F)", "(G)", "(H)", "(I)", "(J)"]),
  (0x1f11a, ["(K)", "(L)", "(M)", "(N)", "(O)", "(P)", "(Q)", "(R)", "(S)", "(T)"]),
  (0x1f124, ["(U)", "(V)", "(W)", "(X)", "(Y)", "(Z)"]), (0x1f12d, ["CD", "WZ"]),
  (0x1f14a, ["HV", "MV", "SD", "SS", "PPV", "WC"]), (0x1f16a, ["MC", "MD", "MR"]),
  (0x1f190, ["DJ"])]

end Storyworld
