/-! Letters with marks. A letter and a mark of its own behind it are the same as the letter that has
the mark already, and texts that are compared have the latter.

Only some scripts are here: small letters of Latin, Greek, Cyrillic and Arabic, and kana. Left out
are the scripts whose vowel signs are composed (Devanagari, Bengali, Oriya, Tamil, Telugu, Kannada,
Malayalam, Sinhala, Myanmar, Balinese, Kaithi, Chakma, Grantha, Tirhuta, Siddham, Dives Akuru), the
syllables of Hangul, and of the scripts here the iota subscript, the marks of Greek that stand alone
and the long stroke through signs. Several marks of one letter are composed in the order they come
in and not put into the canonical order first. -/

namespace EventQuery.Text

/-- A mark, small letters that it may follow, and the letters that have it, in the same order. -/
structure MarkRow where
  mark : Nat
  letters : String
  marked : String

/-- The marks of the Latin, Greek, Cyrillic and Arabic scripts and of kana. A letter that is in no
row keeps the mark behind it. -/
def markRows : List MarkRow := [
  ⟨0x300, "aeiouünеиēōwâăêôơưyἀἁἐἑἠἡἰἱὀὁὐὑὠὡαεηιουωϊϋ",
    "àèìòùǜǹѐѝḕṑẁầằềồờừỳἂἃἒἓἢἣἲἳὂὃὒὓὢὣὰὲὴὶὸὺὼῒῢ"⟩,
  ⟨0x301, "aeiouyclnrszügåæøϊαεηιϋουωгкçēïkmõōpũwâăêôơưἀἁἐἑἠἡἰἱὀὁὐὑὠὡ",
    "áéíóúýćĺńŕśźǘǵǻǽǿΐάέήίΰόύώѓќḉḗḯḱḿṍṓṕṹẃấắếốớứἄἅἔἕἤἥἴἵὄὅὔὕὤὥ"⟩,
  ⟨0x302, "aeioucghjswyzạẹọ", "âêîôûĉĝĥĵŝŵŷẑậệộ"⟩,
  ⟨0x303, "anoiuvâăeêôơưy", "ãñõĩũṽẫẵẽễỗỡữỹ"⟩,
  ⟨0x304, "aeiouüäȧæǫöõȯyиуgḷṛαιυ", "āēīōūǖǟǡǣǭȫȭȱȳӣӯḡḹṝᾱῑῡ"⟩,
  ⟨0x306, "aegiouиужаеȩạαιυ", "ăĕğĭŏŭйўӂӑӗḝặᾰῐῠ"⟩,
  ⟨0x307, "cegzaobdfhmnprsśšṣtwxy", "ċėġżȧȯḃḋḟḣṁṅṗṙṡṥṧṩṫẇẋẏ"⟩,
  ⟨0x308, "aeiouyιυеіаәжзиоөэучыhõūwxt", "äëïöüÿϊϋёїӓӛӝӟӥӧӫӭӱӵӹḧṏṻẅẍẗ"⟩,
  ⟨0x309, "aâăeêioôơuưy", "ảẩẳẻểỉỏổởủửỷ"⟩,
  ⟨0x30A, "auwy", "åůẘẙ"⟩,
  ⟨0x30B, "ouу", "őűӳ"⟩,
  ⟨0x30C, "cdelnrstzaiouügkʒjh", "čďěľňřšťžǎǐǒǔǚǧǩǯǰȟ"⟩,
  ⟨0x30F, "aeioruѵ", "ȁȅȉȍȑȕѷ"⟩,
  ⟨0x311, "aeioru", "ȃȇȋȏȓȗ"⟩,
  ⟨0x313, "αεηιουωρ", "ἀἐἠἰὀὐὠῤ"⟩,
  ⟨0x314, "αεηιουωρ", "ἁἑἡἱὁὑὡῥ"⟩,
  ⟨0x31B, "ou", "ơư"⟩,
  ⟨0x323, "bdhklmnrstvwzaeioơuưy", "ḅḍḥḳḷṃṇṛṣṭṿẉẓạẹịọợụựỵ"⟩,
  ⟨0x324, "u", "ṳ"⟩,
  ⟨0x325, "a", "ḁ"⟩,
  ⟨0x326, "st", "șț"⟩,
  ⟨0x327, "cgklnrstedh", "çģķļņŗşţȩḑḩ"⟩,
  ⟨0x328, "aeiuo", "ąęįųǫ"⟩,
  ⟨0x32D, "delntu", "ḓḙḽṋṱṷ"⟩,
  ⟨0x32E, "h", "ḫ"⟩,
  ⟨0x330, "eiu", "ḛḭṵ"⟩,
  ⟨0x331, "bdklnrtzh", "ḇḏḵḻṉṟṯẕẖ"⟩,
  ⟨0x342, "ἀἁἠἡἰἱὐὑὠὡαηιϊυϋω", "ἆἇἦἧἶἷὖὗὦὧᾶῆῖῗῦῧῶ"⟩,
  ⟨0x653, "ا", "آ"⟩,
  ⟨0x654, "اويەہے", "أؤئۀۂۓ"⟩,
  ⟨0x655, "ا", "إ"⟩,
  ⟨0x3099, "かきくけこさしすせそたちつてとはひふへほうゝカキクケコサシスセソタチツテトハヒフヘホウワヰヱヲヽ",
    "がぎぐげござじずぜぞだぢづでどばびぶべぼゔゞガギグゲゴザジズゼゾダヂヅデドバビブベボヴヷヸヹヺヾ"⟩,
  ⟨0x309A, "はひふへほハヒフヘホ", "ぱぴぷぺぽパピプペポ"⟩]

/-- The letter that has a mark. -/
def marked? (letter mark : Char) : Option Char := do
  let row ← markRows.find? (·.mark == mark.toNat)
  (row.letters.toList.zip row.marked.toList).lookup letter

/-- A text whose letters have their marks, with `done` in front, the last character first. -/
def composeFrom (done : List Char) : List Char → List Char
  | [] => done.reverse
  | c :: rest =>
    match done with
    | [] => composeFrom [c] rest
    | letter :: before =>
      match marked? letter c with
      | some letter => composeFrom (letter :: before) rest
      | none => composeFrom (c :: done) rest

def compose (cs : List Char) : List Char := composeFrom [] cs

end EventQuery.Text
