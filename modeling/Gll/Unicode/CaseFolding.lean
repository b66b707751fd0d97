import Gll.Unicode.RangeTable

/-!
Simple case folding. Two code points fold alike when they are in one *orbit*; nearly every orbit is
a pair, and pairs come in runs with one distance (`A`–`Z` with `a`–`z`), so the table lists runs of
pairs and, apart, the few orbits with three or four members.
-/

set_option autoImplicit false

namespace Gll.Unicode

/-- A run of pairs: each code point of `lower` with the one `distance` above it. -/
structure FoldPairs where
  lower : RangeTable
  distance : Nat

namespace CaseFolding

/-- The orbits of two members, gathered by the distance between the two. -/
def pairs : List FoldPairs :=
  [ ⟨.ofLines
      ["100-12E/2 132-136/2 139-147/2 14A-176/2 179-17D/2 182 184 187 18B 191 198 1A0-1A4/2",
       "1A7 1AC 1AF 1B3 1B5 1B8 1BC 1CD-1DB/2 1DE-1EE/2 1F4 1F8-21E/2 222-232/2 23B 241",
       "246-24E/2 370 372 376 3D8-3EE/2 3F7 3FA 460 464-480/2 48A-4BE/2 4C1-4CD/2 4D0-52E/2",
       "1C89 1E00-1E5E/2 1E62-1E94/2 1EA0-1EFE/2 2183 2C60 2C67-2C6B/2 2C72 2C75 2C80-2CE2/2",
       "2CEB 2CED 2CF2 A640-A648/2 A64C-A66C/2 A680-A69A/2 A722-A72E/2 A732-A76E/2 A779 A77B",
       "A77E-A786/2 A78B A790 A792 A796-A7A8/2 A7B4-A7C2/2 A7C7 A7C9 A7CC A7D0 A7D6-A7DA/2",
       "A7F5"], 0x1⟩,
    ⟨.ofLines
      ["3F2 1FE5"], 0x7⟩,
    ⟨.ofLines
      ["3CF 13F0-13F5 1F00-1F07 1F10-1F15 1F20-1F27 1F30-1F37 1F40-1F45 1F51-1F57/2 1F60-1F67",
       "1F80-1F87 1F90-1F97 1FA0-1FA7 1FB0-1FB1 1FD0-1FD1 1FE0-1FE1"], 0x8⟩,
    ⟨.ofLines
      ["1FB3 1FC3 1FF3"], 0x9⟩,
    ⟨.ofLines
      ["4C0"], 0xF⟩,
    ⟨.ofLines
      ["2160-216F"], 0x10⟩,
    ⟨.ofLines
      ["24B6-24CF"], 0x1A⟩,
    ⟨.ofLines
      ["2132"], 0x1C⟩,
    ⟨.ofLines
      ["41-4A 4C-52 54-5A C0-C4 C6-D6 D8-DE 391 393-394 396-397 39B 39D-39F 3A4-3A5 3A7-3A8",
       "3AA-3AB 410-411 413 415-41D 41F-420 423-429 42B-42F FF21-FF3A 10D50-10D65 118A0-118BF",
       "16E40-16E5F"], 0x20⟩,
    ⟨.ofLines
      ["1E900-1E921"], 0x22⟩,
    ⟨.ofLines
      ["388-38A"], 0x25⟩,
    ⟨.ofLines
      ["386"], 0x26⟩,
    ⟨.ofLines
      ["10570-1057A 1057C-1058A 1058C-10592 10594-10595"], 0x27⟩,
    ⟨.ofLines
      ["10400-10427 104B0-104D3"], 0x28⟩,
    ⟨.ofLines
      ["531-556 2C00-2C2F A794"], 0x30⟩,
    ⟨.ofLines
      ["1BF"], 0x38⟩,
    ⟨.ofLines
      ["38E-38F"], 0x3F⟩,
    ⟨.ofLines
      ["38C 10C80-10CB2"], 0x40⟩,
    ⟨.ofLines
      ["244"], 0x45⟩,
    ⟨.ofLines
      ["245"], 0x47⟩,
    ⟨.ofLines
      ["1F70-1F71"], 0x4A⟩,
    ⟨.ofLines
      ["18E"], 0x4F⟩,
    ⟨.ofLines
      ["400-40F"], 0x50⟩,
    ⟨.ofLines
      ["1F72-1F75"], 0x56⟩,
    ⟨.ofLines
      ["195"], 0x61⟩,
    ⟨.ofLines
      ["1F76-1F77"], 0x64⟩,
    ⟨.ofLines
      ["1F7A-1F7B"], 0x70⟩,
    ⟨.ofLines
      ["37F"], 0x74⟩,
    ⟨.ofLines
      ["FF"], 0x79⟩,
    ⟨.ofLines
      ["1F7C-1F7D"], 0x7E⟩,
    ⟨.ofLines
      ["1F78-1F79"], 0x80⟩,
    ⟨.ofLines
      ["19E 37B-37D"], 0x82⟩,
    ⟨.ofLines
      ["19A"], 0xA3⟩,
    ⟨.ofLines
      ["180"], 0xC3⟩,
    ⟨.ofLines
      ["18F"], 0xCA⟩,
    ⟨.ofLines
      ["190"], 0xCB⟩,
    ⟨.ofLines
      ["189-18A 193"], 0xCD⟩,
    ⟨.ofLines
      ["186"], 0xCE⟩,
    ⟨.ofLines
      ["194"], 0xCF⟩,
    ⟨.ofLines
      ["197"], 0xD1⟩,
    ⟨.ofLines
      ["181"], 0xD2⟩,
    ⟨.ofLines
      ["196 19C"], 0xD3⟩,
    ⟨.ofLines
      ["19D"], 0xD5⟩,
    ⟨.ofLines
      ["19F"], 0xD6⟩,
    ⟨.ofLines
      ["1B1-1B2"], 0xD9⟩,
    ⟨.ofLines
      ["1A6 1A9 1AE"], 0xDA⟩,
    ⟨.ofLines
      ["1B7"], 0xDB⟩,
    ⟨.ofLines
      ["A7B3"], 0x3A0⟩,
    ⟨.ofLines
      ["10D0-10FA 10FD-10FF"], 0xBC0⟩,
    ⟨.ofLines
      ["1D7D"], 0xEE6⟩,
    ⟨.ofLines
      ["10A0-10C5 10C7 10CD"], 0x1C60⟩,
    ⟨.ofLines
      ["DF"], 0x1DBF⟩,
    ⟨.ofLines
      ["27D"], 0x29E7⟩,
    ⟨.ofLines
      ["26B"], 0x29F7⟩,
    ⟨.ofLines
      ["271"], 0x29FD⟩,
    ⟨.ofLines
      ["251"], 0x2A1C⟩,
    ⟨.ofLines
      ["252"], 0x2A1E⟩,
    ⟨.ofLines
      ["250"], 0x2A1F⟩,
    ⟨.ofLines
      ["23E"], 0x2A28⟩,
    ⟨.ofLines
      ["23A"], 0x2A2B⟩,
    ⟨.ofLines
      ["23F-240"], 0x2A3F⟩,
    ⟨.ofLines
      ["1D79"], 0x8A04⟩,
    ⟨.ofLines
      ["1D8E"], 0x8A38⟩,
    ⟨.ofLines
      ["13A0-13EF"], 0x97D0⟩,
    ⟨.ofLines
      ["29E"], 0xA512⟩,
    ⟨.ofLines
      ["29D"], 0xA515⟩,
    ⟨.ofLines
      ["265"], 0xA528⟩,
    ⟨.ofLines
      ["287"], 0xA52A⟩,
    ⟨.ofLines
      ["26C"], 0xA541⟩,
    ⟨.ofLines
      ["282"], 0xA543⟩,
    ⟨.ofLines
      ["266 26A"], 0xA544⟩,
    ⟨.ofLines
      ["261"], 0xA54B⟩,
    ⟨.ofLines
      ["25C"], 0xA54F⟩,
    ⟨.ofLines
      ["264"], 0xA567⟩,
    ⟨.ofLines
      ["19B"], 0xA641⟩ ]

/-- The orbits of three or four members. -/
def larger : List (List Nat) :=
  [ [0x4B, 0x6B, 0x212A],
    [0x53, 0x73, 0x17F],
    [0xB5, 0x39C, 0x3BC],
    [0xC5, 0xE5, 0x212B],
    [0x1C4, 0x1C5, 0x1C6],
    [0x1C7, 0x1C8, 0x1C9],
    [0x1CA, 0x1CB, 0x1CC],
    [0x1F1, 0x1F2, 0x1F3],
    [0x345, 0x399, 0x3B9, 0x1FBE],
    [0x392, 0x3B2, 0x3D0],
    [0x395, 0x3B5, 0x3F5],
    [0x398, 0x3B8, 0x3D1, 0x3F4],
    [0x39A, 0x3BA, 0x3F0],
    [0x3A0, 0x3C0, 0x3D6],
    [0x3A1, 0x3C1, 0x3F1],
    [0x3A3, 0x3C2, 0x3C3],
    [0x3A6, 0x3C6, 0x3D5],
    [0x3A9, 0x3C9, 0x2126],
    [0x412, 0x432, 0x1C80],
    [0x414, 0x434, 0x1C81],
    [0x41E, 0x43E, 0x1C82],
    [0x421, 0x441, 0x1C83],
    [0x422, 0x442, 0x1C84, 0x1C85],
    [0x42A, 0x44A, 0x1C86],
    [0x462, 0x463, 0x1C87],
    [0x1C88, 0xA64A, 0xA64B],
    [0x1E60, 0x1E61, 0x1E9B] ]

/-- The other code points that fold like `code`. -/
def mates (code : Nat) : List Nat :=
  match larger.find? fun orbit => orbit.contains code with
  | some orbit => orbit.filter fun mate => mate != code
  | none =>
    pairs.filterMap fun run =>
      if run.lower.contains code then some (code + run.distance)
      else if run.distance ≤ code && run.lower.contains (code - run.distance) then
        some (code - run.distance)
      else none

end CaseFolding

end Gll.Unicode
