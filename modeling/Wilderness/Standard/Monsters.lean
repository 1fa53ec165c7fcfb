import Wilderness.Bestiary
import Wilderness.Table.Sheet

/-!
# The standard bestiary

Numbers that appear, hit dice and worth of all monsters of the standard tables, as they are written
down, and the bestiary that they are loaded into.
-/

namespace Wilderness.Standard

/-! ## Written statistics -/

/-- Creatures of equal worth: the name, the number that appears, the hit dice and the worth. -/
def creatureLines : List (String × String × Float × UInt32) :=
  [
    -- Men
    ("Bandit", "3d10x10", 1.0, 1),
    ("Brigand", "3d10x10", 1.0, 1),
    ("Berserker", "3d10x10", 1.1, 1),
    ("Nomad", "3d10x10", 1.0, 1),
    ("Dervish", "3d10x10", 1.0, 1),
    ("Caveman", "1d10x10", 2.0, 2),
    ("Buccaneer", "3d10x10", 1.0, 1),
    ("Pirate", "3d10x10", 1.0, 1),
    -- Flyers
    ("Pegasus", "1d12", 2.0, 2),
    ("Roc, Small", "1d20", 6.0, 6),
    ("Chimera", "1d4", 9.0, 13),
    ("Hippogriff", "2d8", 3.1, 3),
    ("Griffon", "2d8", 7.0, 7),
    ("Manticore", "1d4", 6.1, 9),
    ("Wyvern", "1d6", 7.0, 10),
    ("Gargoyle", "2d10", 4.0, 6),
    ("Cockatrice", "1d8", 5.0, 9),
    ("Harpy", "2d6", 3.0, 4),
    ("Vampire", "1d6", 7.0, 14),
    -- Giants and humanoids
    ("Kobold", "4d10x10", 0.5, 1),
    ("Goblin", "4d10x10", 0.75, 1),
    ("Orc", "3d10x10", 1.0, 1),
    ("Hobgoblin", "2d10x10", 1.1, 1),
    ("Gnoll", "2d10x10", 2.0, 2),
    ("Ogre", "3d6", 4.1, 5),
    ("Troll", "2d6", 6.3, 10),
    ("Dwarf", "4d10x10", 1.0, 1),
    ("Elf", "2d10x10", 1.1, 1),
    ("Gnome", "4d10x10", 1.0, 1),
    ("Ent", "2d10", 8.0, 10),
    ("Giant, Hill", "1d8", 8.0, 9),
    ("Giant, Stone", "1d8", 9.0, 10),
    ("Giant, Frost", "1d8", 10.0, 12),
    ("Giant, Fire", "1d8", 11.0, 13),
    ("Giant, Cloud", "1d8", 12.0, 15),
    -- Lycanthropes
    ("Werewolf", "2d10", 5.0, 7),
    ("Wereboar", "2d8", 4.1, 6),
    ("Weretiger", "1d6", 6.0, 9),
    ("Werebear", "1d4", 6.0, 9),
    -- Animals
    ("Giant Ant, Worker", "2d6", 2.0, 2),
    ("Giant Beetle, Bombardier", "2d6", 2.0, 3),
    ("Giant Snake, Constrictor", "1d3", 6.0, 6),
    ("Giant Spider", "1d4", 4.0, 5),
    ("Lion", "1d8", 5.0, 6),
    ("Giant Weasel", "1d6", 4.0, 5),
    ("Giant Scorpion", "1d6", 5.0, 7),
    ("Giant Lizard", "1d6", 3.0, 3),
    ("Giant Centipede", "2d4", 0.5, 1),
    ("Giant Hog", "1d8", 3.0, 3),
    ("Giant Rat", "3d6", 0.5, 1),
    ("Wolf", "2d6+2", 2.1, 2),
    -- Swimmers
    ("Giant Crab", "1d6", 3.0, 3),
    ("Giant Leech", "1d10", 6.0, 6),
    ("Crocodile", "1d8", 3.0, 3),
    ("Giant Fish", "1d6", 4.0, 4),
    ("Sea Monster, Small", "1d6/3", 10.0, 10),
    ("Dragon Turtle", "1", 30.0, 40),
    ("Merman", "1d6x10", 1.0, 1),
    ("Nixie", "2d10x10", 1.0, 1),
    ("Hydra, 10 Heads", "1", 10.0, 11),
    ("Giant Octopus", "1d3", 4.0, 5),
    ("Giant Squid", "1", 6.0, 7),
    -- Undead
    ("Skeleton", "3d10", 0.5, 1),
    ("Zombie", "3d10", 2.0, 2),
    ("Ghoul", "2d12", 2.0, 3),
    ("Wight", "2d12", 3.0, 5),
    ("Wraith", "2d8", 4.0, 7),
    ("Mummy", "1d12", 5.1, 8),
    ("Spectre", "1d8", 6.0, 10),
    -- Dragons
    ("Dragon, White", "1d4", 6.0, 8),
    ("Dragon, Black", "1d4", 7.0, 10),
    ("Dragon, Green", "1d4", 8.0, 12),
    ("Dragon, Blue", "1d4", 9.0, 14),
    ("Dragon, Red", "1d4", 10.0, 17),
    -- The worth of a gold dragon is an estimate.
    ("Dragon, Gold", "1d4", 11.0, 40),
    ("Basilisk", "1d6", 6.1, 12),
    ("Purple Worm", "1d2", 15.0, 20)]

/-- Leaders and their levels. -/
def leaderLines : List (String × UInt32) :=
  [("Wizard", 11),
    ("Necromancer", 10),
    ("Lord", 9),
    ("Superhero", 8),
    ("Patriarch", 8),
    ("Evil High Priest", 8)]

/-- Names that several kinds of monsters share. -/
def familySheets : List Sheet :=
  [ { name := "Giant"
      die := .d10
      rows :=
        [(1, 6, "Giant, Hill"), (7, 7, "Giant, Stone"), (8, 8, "Giant, Frost"),
         (9, 9, "Giant, Fire"), (10, 10, "Giant, Cloud")] },
    { name := "Dragon"
      die := .d6
      rows :=
        [(1, 1, "Dragon, White"), (2, 2, "Dragon, Black"), (3, 3, "Dragon, Green"),
         (4, 4, "Dragon, Blue"), (5, 5, "Dragon, Red"), (6, 6, "Dragon, Gold")] }]

/-! ## Loading -/

/-- The creatures, unless a number cannot be read. -/
def loadCreatures : Except ThrowError (List Monster) :=
  creatureLines.mapM fun (name, number, hitDice, worth) =>
    Monster.ofWritten name number hitDice worth

/-- The leaders, unless the number or the worth of retainers cannot be read. -/
def loadLeaders : Except ThrowError (List Monster) :=
  leaderLines.mapM fun (name, level) => Monster.ofLevel name level

/-- The families, unless the rows of one do not tile its die. -/
def loadFamilies : Except Flaw (List (RollTable String)) :=
  familySheets.mapM (·.build id)

/-- The creatures as they load. -/
def creatures : List Monster :=
  loadCreatures.toOption.get (by decide +kernel)

/-- The leaders of these levels. -/
def leaders : List Monster :=
  leaderLines.map fun (name, level) => Monster.leader name level

/-- The families as they load. -/
def families : List (RollTable String) :=
  loadFamilies.toOption.get (by decide +kernel)

/-- The bestiary of monsters and of families. -/
def catalogue (monsters : List Monster) (families : List (RollTable String)) : Bestiary :=
  .ofList (monsters.map .single ++ families.map .family)

/-- All monsters and families. -/
def bestiary : Bestiary :=
  catalogue (creatures ++ leaders) families

end Wilderness.Standard
