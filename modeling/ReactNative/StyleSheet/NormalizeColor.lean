import Mathlib.Data.Rat.Floor
import ReactNative.Foundation.Regex

/-! The expressions for `#…` stand between `^` and `$`, those for `rgb(…)` and the like do not:
these are looked for anywhere in the string, so `xrgb(1,2,3)` is a color. -/
namespace ReactNative.NormalizeColor

open Regex

abbrev Text := List UInt16

/-! ### Matchers -/

def isHexDigit (char : UInt16) : Bool :=
  isDigit char ∨ 97 ≤ char ∧ char ≤ 102 ∨ 65 ≤ char ∧ char ≤ 70

def space : List (Run UInt16) := [{ accepts := isSpace, least := 0, most := none }]

def NUMBER : List (Run UInt16) :=
  [{ accepts := (· ∈ units "-+"), least := 0 }, { accepts := isDigit, least := 0, most := none },
    { accepts := (· ∈ units "."), least := 0 }, { accepts := isDigit, most := none }]

def PERCENTAGE : List (Run UInt16) := NUMBER ++ literal (units "%")

/-- `\(\s*(` and `)\s*\)` around the arguments, `)\s*,\s*(` between them. -/
def call (args : List (List (Run UInt16))) : List (Regex.Part UInt16) :=
  ⟨false, literal (units "(") ++ space⟩ :: (args.map fun arg => ⟨true, arg⟩).intersperse
      ⟨false, space ++ literal (units ",") ++ space⟩ ++
    [⟨false, space ++ literal (units ")")⟩]

def form (name : String) (args : List (List (Run UInt16))) : List (Regex.Part UInt16) :=
  ⟨false, literal (units name)⟩ :: call args

/-- `#` and groups of so many digits. -/
def hex (groups : List ℕ) : List (Regex.Part UInt16) :=
  ⟨false, literal (units "#")⟩ ::
    groups.map fun n => ⟨true, [{ accepts := isHexDigit, least := n, most := some n }]⟩

def rgb := form "rgb" [NUMBER, NUMBER, NUMBER]
def rgba := form "rgba" [NUMBER, NUMBER, NUMBER, NUMBER]
def hsl := form "hsl" [NUMBER, PERCENTAGE, PERCENTAGE]
def hsla := form "hsla" [NUMBER, PERCENTAGE, PERCENTAGE, NUMBER]
def hex3 := hex [1, 1, 1]
def hex4 := hex [1, 1, 1, 1]
def hex6 := hex [6]
def hex8 := hex [8]

/-! ### Numbers -/

variable (text : Text)

def parseDigits : ℕ := text.foldl (fun n char => 10 * n + (char.toNat - 48)) 0

def hexValue (char : UInt16) : ℕ :=
  if char ≤ 57 then char.toNat - 48 else if char ≤ 70 then char.toNat - 55 else char.toNat - 87

/-- `parseInt(text, 16) >>> 0` of hexadecimal digits. -/
def parseHex : ℕ := text.foldl (fun n char => 16 * n + hexValue char) 0 % 2 ^ 32

def parseSign : ℤ × Text :=
  match text with
  | char :: rest => if char = 45 then (-1, rest) else if char = 43 then (1, rest) else (1, text)
  | [] => (1, [])

/-- `parseInt(text, 10)`, without a value for `NaN`. -/
def parseInt : Option ℤ :=
  let signed := parseSign (text.dropWhile isSpace)
  let digits := signed.2.takeWhile isDigit
  if digits = [] then none else some (signed.1 * parseDigits digits)

/-- `parseFloat` of a text without exponent, as matched by `NUMBER` and `PERCENTAGE`. -/
def parseFloat : ℚ :=
  let signed := parseSign (text.dropWhile isSpace)
  let whole := signed.2.takeWhile isDigit
  let behind := signed.2.dropWhile isDigit
  let fraction := if behind.head? = some 46 then behind.tail.takeWhile isDigit else []
  signed.1 * parseDigits (whole ++ fraction) / 10 ^ fraction.length

/-- `Math.round`. -/
def round (x : ℚ) : ℤ := ⌊x + 1 / 2⌋

/-- `%` of numbers, with the sign of the dividend. -/
def remainder (x y : ℚ) : ℚ := x - y * (if x / y < 0 then ⌈x / y⌉ else ⌊x / y⌋)

def parse255 (str : Text) : Option ℤ := do
  let int ← parseInt str
  if int < 0 then some 0 else if int > 255 then some 255 else some int

def parse360 (str : Text) : ℚ :=
  let int := parseFloat str
  remainder (remainder int 360 + 360) 360 / 360

def parse1 (str : Text) : ℤ :=
  let num := parseFloat str
  if num < 0 then 0 else if num > 1 then 255 else round (num * 255)

def parsePercentage (str : Text) : ℚ :=
  let int := parseFloat str
  if int < 0 then 0 else if int > 100 then 1 else int / 100

/-! ### Colors -/

def hue2rgb (p q t : ℚ) : ℚ :=
  let t := if t < 0 then t + 1 else t
  let t := if t > 1 then t - 1 else t
  if t < 1 / 6 then p + (q - p) * 6 * t
  else if t < 1 / 2 then q
  else if t < 2 / 3 then p + (q - p) * (2 / 3 - t) * 6
  else p

/-- Operand of `<<` and `|`. -/
def int32 (n : ℤ) : BitVec 32 := BitVec.ofInt 32 n

def hslToRgb (h s l : ℚ) : BitVec 32 :=
  let q := if l < 0.5 then l * (1 + s) else l + s - l * s
  let p := 2 * l - q
  let r := hue2rgb p q (h + 1 / 3)
  let g := hue2rgb p q h
  let b := hue2rgb p q (h - 1 / 3)
  int32 (round (r * 255)) <<< 24 ||| int32 (round (g * 255)) <<< 16 |||
    int32 (round (b * 255)) <<< 8

/-- The branches for `rgb` and `rgba`; `NaN` is 0 as an operand. -/
def rgbColor (r g b : Text) (a : ℤ) : ℕ :=
  (int32 ((parse255 r).getD 0) <<< 24 ||| int32 ((parse255 g).getD 0) <<< 16 |||
    int32 ((parse255 b).getD 0) <<< 8 ||| int32 a).toNat

def hslColor (h s l : Text) (a : ℤ) : ℕ :=
  (hslToRgb (parse360 h) (parsePercentage s) (parsePercentage l) ||| int32 a).toNat

def names : List (String × ℕ) :=
  [("transparent", 0x00000000), ("aliceblue", 0xf0f8ffff), ("antiquewhite", 0xfaebd7ff),
  ("aqua", 0x00ffffff), ("aquamarine", 0x7fffd4ff), ("azure", 0xf0ffffff), ("beige", 0xf5f5dcff),
  ("bisque", 0xffe4c4ff), ("black", 0x000000ff), ("blanchedalmond", 0xffebcdff),
  ("blue", 0x0000ffff), ("blueviolet", 0x8a2be2ff), ("brown", 0xa52a2aff),
  ("burlywood", 0xdeb887ff), ("burntsienna", 0xea7e5dff), ("cadetblue", 0x5f9ea0ff),
  ("chartreuse", 0x7fff00ff), ("chocolate", 0xd2691eff), ("coral", 0xff7f50ff),
  ("cornflowerblue", 0x6495edff), ("cornsilk", 0xfff8dcff), ("crimson", 0xdc143cff),
  ("cyan", 0x00ffffff), ("darkblue", 0x00008bff), ("darkcyan", 0x008b8bff),
  ("darkgoldenrod", 0xb8860bff), ("darkgray", 0xa9a9a9ff), ("darkgreen", 0x006400ff),
  ("darkgrey", 0xa9a9a9ff), ("darkkhaki", 0xbdb76bff), ("darkmagenta", 0x8b008bff),
  ("darkolivegreen", 0x556b2fff), ("darkorange", 0xff8c00ff), ("darkorchid", 0x9932ccff),
  ("darkred", 0x8b0000ff), ("darksalmon", 0xe9967aff), ("darkseagreen", 0x8fbc8fff),
  ("darkslateblue", 0x483d8bff), ("darkslategray", 0x2f4f4fff), ("darkslategrey", 0x2f4f4fff),
  ("darkturquoise", 0x00ced1ff), ("darkviolet", 0x9400d3ff), ("deeppink", 0xff1493ff),
  ("deepskyblue", 0x00bfffff), ("dimgray", 0x696969ff), ("dimgrey", 0x696969ff),
  ("dodgerblue", 0x1e90ffff), ("firebrick", 0xb22222ff), ("floralwhite", 0xfffaf0ff),
  ("forestgreen", 0x228b22ff), ("fuchsia", 0xff00ffff), ("gainsboro", 0xdcdcdcff),
  ("ghostwhite", 0xf8f8ffff), ("gold", 0xffd700ff), ("goldenrod", 0xdaa520ff), ("gray", 0x808080ff),
  ("green", 0x008000ff), ("greenyellow", 0xadff2fff), ("grey", 0x808080ff),
  ("honeydew", 0xf0fff0ff), ("hotpink", 0xff69b4ff), ("indianred", 0xcd5c5cff),
  ("indigo", 0x4b0082ff), ("ivory", 0xfffff0ff), ("khaki", 0xf0e68cff), ("lavender", 0xe6e6faff),
  ("lavenderblush", 0xfff0f5ff), ("lawngreen", 0x7cfc00ff), ("lemonchiffon", 0xfffacdff),
  ("lightblue", 0xadd8e6ff), ("lightcoral", 0xf08080ff), ("lightcyan", 0xe0ffffff),
  ("lightgoldenrodyellow", 0xfafad2ff), ("lightgray", 0xd3d3d3ff), ("lightgreen", 0x90ee90ff),
  ("lightgrey", 0xd3d3d3ff), ("lightpink", 0xffb6c1ff), ("lightsalmon", 0xffa07aff),
  ("lightseagreen", 0x20b2aaff), ("lightskyblue", 0x87cefaff), ("lightslategray", 0x778899ff),
  ("lightslategrey", 0x778899ff), ("lightsteelblue", 0xb0c4deff), ("lightyellow", 0xffffe0ff),
  ("lime", 0x00ff00ff), ("limegreen", 0x32cd32ff), ("linen", 0xfaf0e6ff), ("magenta", 0xff00ffff),
  ("maroon", 0x800000ff), ("mediumaquamarine", 0x66cdaaff), ("mediumblue", 0x0000cdff),
  ("mediumorchid", 0xba55d3ff), ("mediumpurple", 0x9370dbff), ("mediumseagreen", 0x3cb371ff),
  ("mediumslateblue", 0x7b68eeff), ("mediumspringgreen", 0x00fa9aff),
  ("mediumturquoise", 0x48d1ccff), ("mediumvioletred", 0xc71585ff), ("midnightblue", 0x191970ff),
  ("mintcream", 0xf5fffaff), ("mistyrose", 0xffe4e1ff), ("moccasin", 0xffe4b5ff),
  ("navajowhite", 0xffdeadff), ("navy", 0x000080ff), ("oldlace", 0xfdf5e6ff), ("olive", 0x808000ff),
  ("olivedrab", 0x6b8e23ff), ("orange", 0xffa500ff), ("orangered", 0xff4500ff),
  ("orchid", 0xda70d6ff), ("palegoldenrod", 0xeee8aaff), ("palegreen", 0x98fb98ff),
  ("paleturquoise", 0xafeeeeff), ("palevioletred", 0xdb7093ff), ("papayawhip", 0xffefd5ff),
  ("peachpuff", 0xffdab9ff), ("peru", 0xcd853fff), ("pink", 0xffc0cbff), ("plum", 0xdda0ddff),
  ("powderblue", 0xb0e0e6ff), ("purple", 0x800080ff), ("rebeccapurple", 0x663399ff),
  ("red", 0xff0000ff), ("rosybrown", 0xbc8f8fff), ("royalblue", 0x4169e1ff),
  ("saddlebrown", 0x8b4513ff), ("salmon", 0xfa8072ff), ("sandybrown", 0xf4a460ff),
  ("seagreen", 0x2e8b57ff), ("seashell", 0xfff5eeff), ("sienna", 0xa0522dff),
  ("silver", 0xc0c0c0ff), ("skyblue", 0x87ceebff), ("slateblue", 0x6a5acdff),
  ("slategray", 0x708090ff), ("slategrey", 0x708090ff), ("snow", 0xfffafaff),
  ("springgreen", 0x00ff7fff), ("steelblue", 0x4682b4ff), ("tan", 0xd2b48cff), ("teal", 0x008080ff),
  ("thistle", 0xd8bfd8ff), ("tomato", 0xff6347ff), ("turquoise", 0x40e0d0ff),
  ("violet", 0xee82eeff), ("wheat", 0xf5deb3ff), ("white", 0xffffffff), ("whitesmoke", 0xf5f5f5ff),
  ("yellow", 0xffff00ff), ("yellowgreen", 0x9acd32ff)]

def normalizeColor (color : Text) : Option ℕ :=
  let twice (groups : List Text) := groups.flatMap fun digit => digit ++ digit
  let group (groups : List Text) (n : ℕ) := groups.getD (n - 1) []
  ((execWhole hex6 color).map fun found => parseHex (group found 1 ++ units "ff")) <|>
  ((names.find? fun name => units name.1 = color).map (·.2)) <|>
  ((exec rgb color).map fun found => rgbColor (group found 1) (group found 2) (group found 3) 255) <|>
  ((exec rgba color).map fun found =>
    rgbColor (group found 1) (group found 2) (group found 3) (parse1 (group found 4))) <|>
  ((execWhole hex3 color).map fun found => parseHex (twice found ++ units "ff")) <|>
  ((execWhole hex8 color).map fun found => parseHex (group found 1)) <|>
  ((execWhole hex4 color).map fun found => parseHex (twice found)) <|>
  ((exec hsl color).map fun found => hslColor (group found 1) (group found 2) (group found 3) 255) <|>
  ((exec hsla color).map fun found =>
    hslColor (group found 1) (group found 2) (group found 3) (parse1 (group found 4)))

example : normalizeColor (units "hsla(180, 50%, 50%, 0.2)") = some 0x40bfbf33 := by decide +kernel

/-! ### Grammar -/

abbrev Language (parts : List (Regex.Part UInt16)) : Text → Prop := Matches (runsOf parts)

def forms : List (String × List (List (Run UInt16))) :=
  [("rgb", [NUMBER, NUMBER, NUMBER]), ("rgba", [NUMBER, NUMBER, NUMBER, NUMBER]),
    ("hsl", [NUMBER, PERCENTAGE, PERCENTAGE]), ("hsla", [NUMBER, PERCENTAGE, PERCENTAGE, NUMBER])]

def IsHex : Prop := ∃ parts ∈ [hex3, hex4, hex6, hex8], Language parts text

def IsName : Prop := ∃ name ∈ names, units name.1 = text

def InGrammar : Prop :=
  IsHex text ∨ IsName text ∨ ∃ named ∈ forms, Language (form named.1 named.2) text

/-- A form of the grammar stands in the text, with characters before or after it. -/
def FormInside : Prop :=
  ∃ named ∈ forms, ∃ before word after, text = before ++ word ++ after ∧
    Language (form named.1 named.2) word ∧ (before ≠ [] ∨ after ≠ [])

theorem normalizeColor_isSome_iff :
    (normalizeColor text).isSome ↔ IsHex text ∨ IsName text ∨
      ∃ named ∈ forms, ∃ before word after, text = before ++ word ++ after ∧
        Language (form named.1 named.2) word := by
  simp only [normalizeColor, Option.orElse_eq_orElse, Option.orElse_eq_or, Option.isSome_or,
    Option.isSome_map, Bool.or_eq_true,
    execWhole_isSome_iff, exec_isSome_iff, List.find?_isSome, decide_eq_true_eq, IsHex, IsName,
    Language, forms, rgb, rgba, hsl, hsla, List.exists_mem_cons_iff, List.not_mem_nil, false_and,
    exists_false, or_false]
  rw [iff_iff_eq]
  ac_rfl

variable {named : String × List (List (Run UInt16))} {text : Text}

theorem form_brackets (isForm : named ∈ forms) (matched : Language (form named.1 named.2) text) :
    ∃ inside, text = units named.1 ++ 40 :: (inside ++ [41]) ∧ 40 ∉ inside ∧ 41 ∉ inside := by
  obtain ⟨inner, isRuns, opening, closing⟩ : ∃ inner, runsOf (form named.1 named.2) =
      literal (units named.1) ++ (literal [40] ++ (inner ++ literal [41])) ∧
      (∀ run ∈ inner, ¬ run.accepts 40) ∧ ∀ run ∈ inner, ¬ run.accepts 41 := by
    refine ⟨((runsOf (form named.1 named.2)).drop ((units named.1).length + 1)).dropLast, ?_⟩
    simp only [forms, List.mem_cons, List.not_mem_nil, or_false] at isForm
    rcases isForm with rfl | rfl | rfl | rfl <;> exact ⟨rfl, by decide, by decide⟩
  rw [Language, isRuns, matches_append] at matched
  obtain ⟨_, _, rfl, isName, matched⟩ := matched
  obtain ⟨_, _, rfl, isOpening, matched⟩ := matches_append.1 matched
  obtain ⟨inside, _, rfl, accepted, isClosing⟩ := matches_append.1 matched
  rw [matches_literal.1 isName, matches_literal.1 isOpening, matches_literal.1 isClosing]
  exact ⟨inside, rfl, accepted.not_mem opening, accepted.not_mem closing⟩

theorem not_mem_of_isHex (isHex : IsHex text) : 40 ∉ text := by
  obtain ⟨parts, isParts, matched⟩ := isHex
  have refused : ∀ parts ∈ [hex3, hex4, hex6, hex8], ∀ run ∈ runsOf parts, ¬ run.accepts 40 := by
    decide
  exact matched.not_mem (refused parts isParts)

theorem not_mem_of_isName (isName : IsName text) : 40 ∉ text := by
  obtain ⟨name, isName, rfl⟩ := isName
  revert name
  decide +kernel

theorem eq_nil_of_form_in_form {other : String × List (List (Run UInt16))}
    {before word after : Text} (isNamed : named ∈ forms) (isOther : other ∈ forms)
    (matched : Language (form named.1 named.2) word)
    (whole : Language (form other.1 other.2) (before ++ word ++ after)) :
    before = [] ∧ after = [] := by
  have noSuffix : ∀ named ∈ forms, ∀ other ∈ forms,
      units named.1 <:+ units other.1 → units named.1 = units other.1 := by decide
  have names : ∀ named ∈ forms, 40 ∉ units named.1 ∧ 41 ∉ units named.1 := by decide
  obtain ⟨inside, rfl, -⟩ := form_brackets isNamed matched
  obtain ⟨outside, isText, noOpening, noClosing⟩ := form_brackets isOther whole
  have closing : (units other.1 ++ 40 :: outside) ++ 41 :: [] =
      (before ++ units named.1 ++ 40 :: inside) ++ 41 :: after := by simpa using isText.symm
  obtain ⟨-, -, rfl⟩ := (List.append_cons_inj_of_notMem
    (by simp [noClosing, names other isOther]) (by simp)).1 closing
  have opening : units other.1 ++ 40 :: (outside ++ [41]) =
      (before ++ units named.1) ++ 40 :: (inside ++ [41]) := by simpa using isText.symm
  obtain ⟨isName, -⟩ := (List.append_cons_inj_of_notMem
    (names other isOther).1 (by simp [noOpening])).1 opening
  have same := noSuffix named isNamed other isOther ⟨before, isName.symm⟩
  exact ⟨by simpa [← same] using isName, rfl⟩

theorem FormInside.not_inGrammar (inside : FormInside text) : ¬ InGrammar text := by
  obtain ⟨_, isForm, before, word, after, rfl, matched, extra⟩ := inside
  have bracket : 40 ∈ before ++ word ++ after := by
    obtain ⟨inside, rfl, -⟩ := form_brackets isForm matched
    simp
  rintro (isHex | isName | ⟨_, isOther, whole⟩)
  · exact not_mem_of_isHex isHex bracket
  · exact not_mem_of_isName isName bracket
  · obtain ⟨rfl, rfl⟩ := eq_nil_of_form_in_form isForm isOther matched whole
    simp at extra

/-- **Exactly its grammar is accepted as long as no form has other characters around it.** -/
theorem accepts_grammar_iff :
    ((normalizeColor text).isSome ↔ InGrammar text) ↔ ¬ FormInside text := by
  rw [normalizeColor_isSome_iff]
  constructor
  · rintro accepted inside
    obtain ⟨named, isForm, before, word, after, isText, matched, -⟩ := id inside
    exact inside.not_inGrammar
      (accepted.1 (.inr (.inr ⟨named, isForm, before, word, after, isText, matched⟩)))
  · intro noForm
    refine or_congr_right (or_congr_right ⟨?_, ?_⟩)
    · rintro ⟨named, isForm, before, word, after, rfl, matched⟩
      by_cases bare : before = [] ∧ after = []
      · obtain ⟨rfl, rfl⟩ := bare
        exact ⟨named, isForm, by simpa using matched⟩
      · exact absurd ⟨named, isForm, before, word, after, rfl, matched, by tauto⟩ noForm
    · rintro ⟨named, isForm, matched⟩
      exact ⟨named, isForm, [], text, [], by simp, matched⟩

theorem accepts_more_than_grammar : ¬ ∀ text, (normalizeColor text).isSome ↔ InGrammar text := by
  intro accepted
  have inside : FormInside (units "xrgb(1,2,3)") :=
    ⟨_, .head _, units "x", units "rgb(1,2,3)", [], rfl,
      execWhole_isSome_iff.1 (by decide +kernel), .inl (by decide)⟩
  exact inside.not_inGrammar ((accepted _).1 (by decide +kernel))

end ReactNative.NormalizeColor

