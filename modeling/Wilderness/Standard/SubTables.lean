import Wilderness.Table.Sheet

/-!
# The standard sub-tables

Each sub-table leads straight to monsters.
-/

namespace Wilderness

namespace Sheet

/-- Men of settled lands. -/
def menTypical : Sheet where
  name := "Men Typical"
  die := .d12
  rows :=
    [(1, 2, "Bandit"), (3, 4, "Brigand"), (5, 5, "Necromancer"), (6, 6, "Wizard"),
     (7, 8, "Berserker"), (9, 9, "Lord"), (10, 10, "Superhero"), (11, 11, "Evil High Priest"),
     (12, 12, "Patriarch")]

/-- Men of the mountains. -/
def menMountain : Sheet where
  name := "Men Mountain"
  die := .d12
  rows :=
    [(1, 2, "Bandit"), (3, 3, "Berserker"), (4, 4, "Brigand"), (5, 5, "Lord"),
     (6, 6, "Superhero"), (7, 7, "Necromancer"), (8, 8, "Wizard"), (9, 9, "Evil High Priest"),
     (10, 10, "Patriarch"), (11, 12, "Caveman")]

/-- Men of the desert. -/
def menDesert : Sheet where
  name := "Men Desert"
  die := .d12
  rows :=
    [(1, 4, "Nomad"), (5, 6, "Dervish"), (7, 7, "Lord"), (8, 8, "Superhero"), (9, 9, "Wizard"),
     (10, 10, "Necromancer"), (11, 11, "Evil High Priest"), (12, 12, "Patriarch")]

/-- Men on the water. -/
def menWater : Sheet where
  name := "Men Water"
  die := .d12
  rows :=
    [(1, 4, "Buccaneer"), (5, 8, "Pirate"), (9, 9, "Lord"), (10, 10, "Superhero"),
     (11, 11, "Wizard"), (12, 12, "Evil High Priest")]

/-- Whatever flies. -/
def flyers : Sheet where
  name := "Flyers"
  die := .d12
  rows :=
    [(1, 1, "Pegasus"), (2, 2, "Roc, Small"), (3, 3, "Chimera"), (4, 4, "Hippogriff"),
     (5, 5, "Griffon"), (6, 6, "Manticore"), (7, 7, "Wyvern"), (8, 8, "Dragon"),
     (9, 9, "Gargoyle"), (10, 10, "Cockatrice"), (11, 11, "Harpy"), (12, 12, "Vampire")]

/-- Giants and humanoids. -/
def giants : Sheet where
  name := "Giants"
  die := .d12
  rows :=
    [(1, 1, "Kobold"), (2, 2, "Goblin"), (3, 3, "Orc"), (4, 4, "Hobgoblin"), (5, 5, "Gnoll"),
     (6, 6, "Ogre"), (7, 7, "Troll"), (8, 8, "Giant"), (9, 9, "Dwarf"), (10, 10, "Elf"),
     (11, 11, "Gnome"), (12, 12, "Ent")]

/-- Shape-changers. -/
def lycanthropes : Sheet where
  name := "Lycanthropes"
  die := .d4
  rows :=
    [(1, 1, "Werewolf"), (2, 2, "Wereboar"), (3, 3, "Weretiger"), (4, 4, "Werebear")]

/-- Animals, most of them giant ones. -/
def animals : Sheet where
  name := "Animals"
  die := .d12
  rows :=
    [(1, 1, "Giant Ant, Worker"), (2, 2, "Giant Beetle, Bombardier"),
     (3, 3, "Giant Snake, Constrictor"), (4, 4, "Giant Spider"), (5, 5, "Lion"),
     (6, 6, "Giant Weasel"), (7, 7, "Giant Scorpion"), (8, 8, "Giant Lizard"),
     (9, 9, "Giant Centipede"), (10, 10, "Giant Hog"), (11, 11, "Giant Rat"), (12, 12, "Wolf")]

/-- Whatever swims. -/
def swimmers : Sheet where
  name := "Swimmers"
  die := .d12
  rows :=
    [(1, 1, "Giant Crab"), (2, 2, "Giant Leech"), (3, 4, "Crocodile"), (5, 5, "Giant Fish"),
     (6, 6, "Sea Monster, Small"), (7, 7, "Dragon Turtle"), (8, 8, "Merman"), (9, 9, "Nixie"),
     (10, 10, "Hydra, 10 Heads"), (11, 11, "Giant Octopus"), (12, 12, "Giant Squid")]

/-- The undead. -/
def undead : Sheet where
  name := "Undead"
  die := .d12
  rows :=
    [(1, 2, "Skeleton"), (3, 4, "Zombie"), (5, 6, "Ghoul"), (7, 8, "Wight"), (9, 9, "Wraith"),
     (10, 10, "Mummy"), (11, 11, "Spectre"), (12, 12, "Vampire")]

/-- Dragons and their like. -/
def dragons : Sheet where
  name := "Dragons"
  die := .d12
  rows :=
    [(1, 6, "Dragon"), (7, 7, "Cockatrice"), (8, 8, "Basilisk"), (9, 9, "Wyvern"),
     (10, 10, "Chimera"), (11, 11, "Hydra, 10 Heads"), (12, 12, "Purple Worm")]

end Sheet

namespace Standard

/-- All sub-tables as they are written down. -/
def subTableSheets : List Sheet :=
  [.menTypical, .menMountain, .menDesert, .menWater, .flyers, .giants, .lycanthropes, .animals,
    .swimmers, .undead, .dragons]

/-- The sub-tables, unless the rows of one do not tile its die. -/
def loadSubTables : Except Flaw (List (RollTable Entry)) :=
  subTableSheets.mapM (·.build .monster)

/-- The sub-tables as they load. -/
def subTables : List (RollTable Entry) :=
  loadSubTables.toOption.get (by decide +kernel)

/-- The sub-table of giants and humanoids. -/
def giants : RollTable Entry :=
  (Sheet.giants.build .monster).toOption.get (by decide +kernel)

end Standard

end Wilderness
