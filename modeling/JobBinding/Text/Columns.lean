import JobBinding.Text.Combining

/-!
# Columns on a terminal

How many columns a text takes: none for marks and for characters that are ignored by default, two
for East Asian wide characters and emoji, one for every other character. A Hangul syllable written
in parts takes the columns of its first part.
-/

namespace JobBinding.Text

/-- Code points with the property Default_Ignorable_Code_Point of Unicode 17. -/
def ignorableRanges : List (Nat × Nat) :=
  [(173, 173), (847, 847), (1564, 1564), (4447, 4448), (6068, 6069), (6155, 6159), (8203, 8207),
    (8234, 8238), (8288, 8303), (12644, 12644), (65024, 65039), (65279, 65279), (65440, 65440),
    (65520, 65528), (113824, 113827), (119155, 119162), (917504, 921599)]

/-- Code points of the vowels and final consonants of a Hangul syllable written in parts. -/
def hangulTailRanges : List (Nat × Nat) :=
  [(4448, 4607), (55216, 55238), (55243, 55291)]

/-- Code points that East_Asian_Width or an emoji presentation makes two columns wide. -/
def wideRanges : List (Nat × Nat) :=
  [(4352, 4447), (8986, 8987), (9001, 9002), (9193, 9196), (9200, 9200), (9203, 9203),
    (9725, 9726), (9748, 9749), (9776, 9783), (9800, 9811), (9855, 9855), (9866, 9871),
    (9875, 9875), (9889, 9889), (9898, 9899), (9917, 9918), (9924, 9925), (9934, 9934),
    (9940, 9940), (9962, 9962), (9970, 9971), (9973, 9973), (9978, 9978), (9981, 9981),
    (9989, 9989), (9994, 9995), (10024, 10024), (10060, 10060), (10062, 10062), (10067, 10069),
    (10071, 10071), (10133, 10135), (10160, 10160), (10175, 10175), (11035, 11036),
    (11088, 11088), (11093, 11093), (11904, 11929), (11931, 12019), (12032, 12245),
    (12272, 12329), (12336, 12350), (12353, 12438), (12443, 12543), (12549, 12591),
    (12593, 12643), (12645, 12686), (12688, 12773), (12783, 12830), (12832, 12871),
    (12880, 42124), (42128, 42182), (43360, 43388), (44032, 55203), (63744, 64109),
    (64112, 64217), (65040, 65049), (65072, 65106), (65108, 65126), (65128, 65131),
    (65281, 65376), (65504, 65510), (94176, 94179), (94194, 94198), (94208, 100343),
    (100352, 101589), (101631, 101662), (101760, 101874), (110576, 110579), (110581, 110587),
    (110589, 110590), (110592, 110882), (110898, 110898), (110928, 110930), (110933, 110933),
    (110948, 110951), (110960, 111355), (119552, 119638), (119648, 119670), (126980, 126980),
    (127183, 127183), (127374, 127374), (127377, 127386), (127488, 127490), (127504, 127547),
    (127552, 127560), (127568, 127569), (127584, 127589), (127744, 127776), (127789, 127797),
    (127799, 127868), (127870, 127891), (127904, 127946), (127951, 127955), (127968, 127984),
    (127988, 127988), (127992, 128062), (128064, 128064), (128066, 128252), (128255, 128317),
    (128331, 128334), (128336, 128359), (128378, 128378), (128405, 128406), (128420, 128420),
    (128507, 128591), (128640, 128709), (128716, 128716), (128720, 128722), (128725, 128728),
    (128732, 128735), (128747, 128748), (128756, 128764), (128992, 129003), (129008, 129008),
    (129292, 129338), (129340, 129349), (129351, 129535), (129648, 129660), (129664, 129674),
    (129678, 129734), (129736, 129736), (129741, 129756), (129759, 129770), (129775, 129784),
    (131072, 196605), (196608, 262141)]

def charColumns (c : Char) : Nat :=
  if inRanges wideRanges c then 2
  else if inRanges ignorableRanges c || isCombining c || inRanges hangulTailRanges c then 0
  else 1

def columns (text : String) : Nat :=
  text.toList.foldl (fun n c => n + charColumns c) 0

end JobBinding.Text
