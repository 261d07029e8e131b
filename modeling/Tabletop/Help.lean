/-
  What is said about the dice notation: the help text, and the expressions shown as examples.
-/

namespace Tabletop

/-- The lines of the help on the dice notation. -/
def helpLines : List String := [
  "Dice Notation Help:",
  "",
  "Basic Dice:",
  "  NdS        Roll N dice with S sides (2d6, 1d20, d20)",
  "  + - * /    Arithmetic; division rounds down (2d6+3, (2d6+1)*2)",
  "",
  "Modifiers:",
  "  khN / klN  Keep highest/lowest N dice (4d6kh3)",
  "  dhN / dlN  Drop highest/lowest N dice (6d6dl1)",
  "  !          Exploding dice on the max face (3d6!)",
  "  !>=N       Explode on N or higher (2d10!>=8)",
  "  r<=N       Reroll N or lower, once (3d6r1)",
  "  ro<=N      Keep rerolling while N or lower (3d6ro<=2)",
  "",
  "Success Counting:",
  "  >=N        Count dice >= N as successes (6d6>=5)",
  "  >N =N <=N <N",
  "",
  "Target Numbers:",
  "  t>=N       Check the total against N (1d20+5 t>=15)",
  "",
  "Special Dice:",
  "  adv / dis  Advantage/disadvantage (2d20kh1 / 2d20kl1)",
  "  NdF        N Fate/Fudge dice (-1, 0, +1)",
  "  dh aN dN   Hope/Fear roll with N advantage / disadvantage d6",
  "",
  "Variables:",
  "  @NAME      Reference a variable (@STR, @DEX, @PROF)",
  "             Names are case-insensitive and shown in UPPERCASE",
  "",
  "Examples:",
  "  1d20+@STR+@PROF t>=15",
  "  dh a@ADV d@DIS + @BONUS t>=@TN",
  "  4dF+@SKILL"]

/-- The help on the dice notation. -/
def helpText : String := "\n".intercalate helpLines

/-- The example expressions by category. -/
def exampleExpressions : List (String × List String) := [
  ("basic", ["1d20", "2d6+3", "4d6kh3", "1d20+5", "3d8"]),
  ("advanced", ["2d20kh1", "2d20kl1", "4d6!", "6d6>=4", "3d6r1", "10d10!>=8",
    "4d6kh3+@STR+@PROF", "1d20+@DEX t>=15"]),
  ("hope_fear", ["dh", "dh a2", "dh d1", "dh a@ADV d@DIS", "dh a2 d1 + @STR",
    "dh a@ADV d@DIS + @BONUS t>=@TN"]),
  ("special", ["4dF", "4dF+@SKILL", "adv", "dis", "adv + @DEX", "6d6kl1"])]

end Tabletop
