import CodeIntel.Text.CombiningClass

namespace CodeIntel

/-- Composed characters other than capitals, each before the character it starts with, by the code of
the character that follows there. -/
def compositesBySecond : List (Nat × String) :=
   [(0x300, "àa èe ìi òo ùu ǜü ǹn ѐе ѝи ḕē ṑō ẁw ầâ ằă ềê ồô ờơ ừư ỳy ἂἀ ἃἁ ἒἐ ἓἑ ἢἠ"),
    (0x300, "ἣἡ ἲἰ ἳἱ ὂὀ ὃὁ ὒὐ ὓὑ ὢὠ ὣὡ ὰα ὲε ὴη ὶι ὸο ὺυ ὼω ῒϊ ῢϋ"),
    (0x301, "áa ée íi óo úu ýy ćc ĺl ńn ŕr śs źz ǘü ǵg ǻå ǽæ ǿø ΐϊ άα έε ήη ίι ΰϋ όο"),
    (0x301, "ύυ ώω ѓг ќк ḉç ḗē ḯï ḱk ḿm ṍõ ṓō ṕp ṹũ ẃw ấâ ắă ếê ốô ớơ ứư ἄἀ ἅἁ ἔἐ ἕἑ"),
    (0x301, "ἤἠ ἥἡ ἴἰ ἵἱ ὄὀ ὅὁ ὔὐ ὕὑ ὤὠ ὥὡ"),
    (0x302, "âa êe îi ôo ûu ĉc ĝg ĥh ĵj ŝs ŵw ŷy ẑz ậạ ệẹ ộọ"),
    (0x303, "ãa ñn õo ĩi ũu ṽv ẫâ ẵă ẽe ễê ỗô ỡơ ữư ỹy"),
    (0x304, "āa ēe īi ōo ūu ǖü ǟä ǡȧ ǣæ ǭǫ ȫö ȭõ ȱȯ ȳy ӣи ӯу ḡg ḹḷ ṝṛ ᾱα ῑι ῡυ"),
    (0x306, "ăa ĕe ğg ĭi ŏo ŭu йи ўу ӂж ӑа ӗе ḝȩ ặạ ᾰα ῐι ῠυ"),
    (0x307, "ċc ėe ġg żz ȧa ȯo ḃb ḋd ḟf ḣh ṁm ṅn ṗp ṙr ṡs ṥś ṧš ṩṣ ṫt ẇw ẋx ẏy 𐗉𐗒 𐗤𐗚"),
    (0x308, "äa ëe ïi öo üu ÿy ϊι ϋυ ёе їі ӓа ӛә ӝж ӟз ӥи ӧо ӫө ӭэ ӱу ӵч ӹы ḧh ṏõ ṻū"),
    (0x308, "ẅw ẍx ẗt"), (0x309, "ảa ẩâ ẳă ẻe ểê ỉi ỏo ổô ởơ ủu ửư ỷy"), (0x30A, "åa ůu ẘw ẙy"),
    (0x30B, "őo űu ӳу"), (0x30C, "čc ďd ěe ľl ňn řr šs ťt žz ǎa ǐi ǒo ǔu ǚü ǧg ǩk ǯʒ ǰj ȟh"),
    (0x30F, "ȁa ȅe ȉi ȍo ȑr ȕu ѷѵ"), (0x311, "ȃa ȇe ȋi ȏo ȓr ȗu"),
    (0x313, "ἀα ἐε ἠη ἰι ὀο ὐυ ὠω ῤρ"), (0x314, "ἁα ἑε ἡη ἱι ὁο ὑυ ὡω ῥρ"), (0x31B, "ơo ưu"),
    (0x323, "ḅb ḍd ḥh ḳk ḷl ṃm ṇn ṛr ṣs ṭt ṿv ẉw ẓz ạa ẹe ịi ọo ợơ ụu ựư ỵy"), (0x324, "ṳu"),
    (0x325, "ḁa"), (0x326, "șs țt"), (0x327, "çc ģg ķk ļl ņn ŗr şs ţt ȩe ḑd ḩh"),
    (0x328, "ąa ęe įi ųu ǫo"), (0x32D, "ḓd ḙe ḽl ṋn ṱt ṷu"), (0x32E, "ḫh"), (0x330, "ḛe ḭi ṵu"),
    (0x331, "ḇb ḏd ḵk ḻl ṉn ṟr ṯt ẕz ẖh"),
    (0x338, "↚← ↛→ ↮↔ ⇍⇐ ⇎⇔ ⇏⇒ ∄∃ ∉∈ ∌∋ ∤∣ ∦∥ ≁∼ ≄≃ ≇≅ ≉≈ ≠= ≢≡ ≭≍ ≮< ≯> ≰≤ ≱≥ ≴≲ ≵≳"),
    (0x338, "≸≶ ≹≷ ⊀≺ ⊁≻ ⊄⊂ ⊅⊃ ⊈⊆ ⊉⊇ ⊬⊢ ⊭⊨ ⊮⊩ ⊯⊫ ⋠≼ ⋡≽ ⋢⊑ ⋣⊒ ⋪⊲ ⋫⊳ ⋬⊴ ⋭⊵"),
    (0x342, "ἆἀ ἇἁ ἦἠ ἧἡ ἶἰ ἷἱ ὖὐ ὗὑ ὦὠ ὧὡ ᾶα ῆη ῖι ῗϊ ῦυ ῧϋ ῶω"), (0x653, "آا"),
    (0x654, "أا ؤو ئي ۀە ۂہ ۓے"), (0x655, "إا"), (0x93C, "ऩन ऱर ऴळ"), (0x9BE, "োে"), (0x9D7, "ৌে"),
    (0xB3E, "ୋେ"), (0xB56, "ୈେ"), (0xB57, "ୌେ"), (0xBBE, "ொெ ோே"), (0xBD7, "ஔஒ ௌெ"), (0xC56, "ైె"),
    (0xCC2, "ೊೆ"), (0xCD5, "ೀಿ ೇೆ ೋೊ"), (0xCD6, "ೈೆ"), (0xD3E, "ൊെ ോേ"), (0xD57, "ൌെ"),
    (0xDCA, "ේෙ ෝො"), (0xDCF, "ොෙ"), (0xDDF, "ෞෙ"), (0x102E, "ဦဥ"),
    (0x1B35, "ᬆᬅ ᬈᬇ ᬊᬉ ᬌᬋ ᬎᬍ ᬒᬑ ᬻᬺ ᬽᬼ ᭀᬾ ᭁᬿ ᭃᭂ"),
    (0x3099, "がか ぎき ぐく げけ ごこ ざさ じし ずす ぜせ ぞそ だた ぢち づつ でて どと ばは びひ ぶふ べへ ぼほ ゔう ゞゝ ガカ ギキ"),
    (0x3099, "グク ゲケ ゴコ ザサ ジシ ズス ゼセ ゾソ ダタ ヂチ ヅツ デテ ドト バハ ビヒ ブフ ベヘ ボホ ヴウ ヷワ ヸヰ ヹヱ ヺヲ ヾヽ"),
    (0x309A, "ぱは ぴひ ぷふ ぺへ ぽほ パハ ピヒ プフ ペヘ ポホ"), (0x110BA, "𑂚𑂙 𑂜𑂛 𑂫𑂥"), (0x11127, "𑄮𑄱 𑄯𑄲"),
    (0x1133E, "𑍋𑍇"), (0x11357, "𑍌𑍇"), (0x113B8, "𑏇𑏂"), (0x113BB, "𑎅𑎄"), (0x113C2, "𑎎𑎋 𑏅𑏂"),
    (0x113C9, "𑎃𑎂 𑎑𑎐 𑏈𑏂"), (0x114B0, "𑒼𑒹"), (0x114BA, "𑒻𑒹"), (0x114BD, "𑒾𑒹"), (0x115AF, "𑖺𑖸 𑖻𑖹"),
    (0x11930, "𑤸𑤵"), (0x1611E, "𖄡𖄞"), (0x1611F, "𖄣𖄞 𖄤𖄩 𖄦𖄡 𖄧𖄢"), (0x16120, "𖄥𖄞 𖄨𖄡"), (0x16129, "𖄢𖄞"),
    (0x16D67, "𖵨𖵧 𖵩𖵣 𖵪𖵩")]

/-- A character that is written for two others. -/
structure Composite where
  whole : Char
  first : Char
  second : Char
deriving DecidableEq, Repr

/-- The composites of a row, for the character that is second in them. -/
def compositesOf (second : Char) (row : String) : List Composite :=
  (row.splitOn " ").filterMap fun word =>
    match word.toList with
    | [whole, first] => some ⟨whole, first, second⟩
    | _ => none

def composites : List Composite :=
  compositesBySecond.flatMap fun (code, row) => compositesOf (Char.ofNat code) row

/-- Where the three kinds of letter that make up a Korean syllable start, the last of them one code
point early, and where the syllables start. -/
def initialBase : Nat := 0x1100
def medialBase : Nat := 0x1161
def finalBase : Nat := 0x11A7
def syllableBase : Nat := 0xAC00

def initialCount : Nat := 19
def medialCount : Nat := 21
def finalCount : Nat := 28

def syllableCount : Nat := initialCount * medialCount * finalCount

/-- The two parts of a Korean syllable: an open one and a final, or an initial and a medial. -/
def partsOfSyllable? (c : Char) : Option (Char × Char) :=
  let index := c.toNat - syllableBase
  if c.toNat < syllableBase ∨ syllableCount ≤ index then none
  else if index % finalCount ≠ 0 then
    some (Char.ofNat (c.toNat - index % finalCount), Char.ofNat (finalBase + index % finalCount))
  else
    let without := index / finalCount
    some (Char.ofNat (initialBase + without / medialCount), Char.ofNat (medialBase + without % medialCount))

/-- The syllable that two parts make up. -/
def syllableOf? (first second : Char) : Option Char :=
  let initial := first.toNat - initialBase
  let medial := second.toNat - medialBase
  let final := second.toNat - finalBase
  let index := first.toNat - syllableBase
  if initialBase ≤ first.toNat ∧ initial < initialCount
      ∧ medialBase ≤ second.toNat ∧ medial < medialCount then
    some (Char.ofNat (syllableBase + (initial * medialCount + medial) * finalCount))
  else if syllableBase ≤ first.toNat ∧ index < syllableCount ∧ index % finalCount = 0
      ∧ finalBase < second.toNat ∧ final < finalCount then
    some (Char.ofNat (first.toNat + final))
  else none

/-- The two characters that a composed one is written for. -/
def partsOf? (c : Char) : Option (Char × Char) :=
  if c.toNat < 0x80 then none
  else
    match composites.find? (·.whole = c) with
    | some composite => some (composite.first, composite.second)
    | none => partsOfSyllable? c

def wholeOf? (first second : Char) : Option Char :=
  if second.toNat < 0x300 then none
  else
    match composites.find? fun composite => composite.first = first && composite.second = second with
    | some composite => some composite.whole
    | none => syllableOf? first second

/-- The most often that a character can be taken apart. -/
def compositionDepth : Nat := 4

/-- Takes a character apart, its first part again. -/
def takeApart : Nat → Char → List Char
  | 0, c => [c]
  | depth + 1, c =>
    match partsOf? c with
    | some (first, second) => takeApart depth first ++ [second]
    | none => [c]

/-- Puts a mark behind the marks that come before it in order. -/
def placeMark (c : Char) : List Char → List Char
  | [] => [c]
  | d :: rest =>
    if combiningClass d ≠ 0 ∧ combiningClass d < combiningClass c then d :: placeMark c rest
    else c :: d :: rest

/-- Joins `letter` with the marks that follow it where there is a character for both. `marks` are the
ones passed over, last first; a mark of the same order hides those behind it. -/
def joinMarks (letter : Char) (marks : List Char) : List Char → List Char
  | [] => letter :: marks.reverse
  | c :: rest =>
    let isNear := marks.head?.all fun mark => combiningClass mark < combiningClass c
    match if isNear then wholeOf? letter c else none with
    | some whole => joinMarks whole marks rest
    | none =>
      if combiningClass c = 0 then letter :: (marks.reverse ++ joinMarks c [] rest)
      else joinMarks letter (c :: marks) rest

/-- The text with its marks in order and joined with their letters where that is possible. -/
def composed (cs : List Char) : List Char :=
  match (cs.flatMap (takeApart compositionDepth)).foldr placeMark [] with
  | [] => []
  | c :: rest => joinMarks c [] rest

end CodeIntel
