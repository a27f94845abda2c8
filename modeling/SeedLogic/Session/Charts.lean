import SeedLogic.Session.Basic

/-!
# Sea charts

When charts are shuffled, each island has a chart of its own, named after it. Otherwise charts
pair off with islands as the tables say.
-/

namespace SeedLogic

namespace ChartName

/-- The lead of the name of the chart of an island. -/
def randomizedLead : String := "Chart for "

/-- The chart of an island when charts are shuffled. -/
def ofIsland (island : String) : String :=
  randomizedLead ++ island

/-- The island after which a chart is named; any other text is returned as it is. -/
def island (chart : String) : String :=
  match Text.strip? randomizedLead.toList chart.toList with
  | some rest => .ofList rest
  | none => chart

/-- Whether a text contains the given lead directly followed by a digit. -/
def hasNumberAfter (lead : List Char) : List Char → Bool
  | [] => false
  | c :: cs =>
    (match Text.strip? lead (c :: cs) with
      | some (d :: _) => d.isDigit
      | _ => false) || hasNumberAfter lead cs

/-- Whether a text contains the name of a numbered chart. -/
def isNumbered (item : String) : Bool :=
  hasNumberAfter "Treasure Chart ".toList item.toList ||
    hasNumberAfter "Triforce Chart ".toList item.toList

/-- The number of triforce charts; all other charts lead to treasures. -/
def triforceCount : Nat := 8

/-- The names of the first charts of a kind. -/
def numbered (lead : String) (count : Nat) : List String :=
  (List.range count).map fun i => lead ++ Text.decimal (i + 1)

end ChartName

/-- The chart that leads to an island when charts are not shuffled. Its kind shows in its name. -/
def GameData.vanillaChart (data : GameData) (island : String) :
    Except LogicError VanillaChart :=
  match data.chartOfIsland? island with
  | none => throw (.unknownIsland island)
  | some name =>
    if (Text.cutFirst? "Treasure".toList name.toList).isSome then pure ⟨name, .treasure⟩
    else pure ⟨name, .triforce⟩

namespace Session

/-- The option that decides whether charts of a kind may lead to progress items. -/
def progressOption : ChartKind → String
  | .treasure => OptionName.progressionTreasureCharts
  | .triforce => OptionName.progressionTriforceCharts

/-- The island to which a chart leads when charts are not shuffled. -/
def islandForChart (chart : String) : Query (Option String) :=
  remember (.chartIsland chart) do
    pure ((← get).data.islandOfChart? chart)

/-- The chart that leads to an island when charts are not shuffled. -/
def vanillaChartForIsland (island : String) : Query VanillaChart :=
  audited "vanilla_chart_for_island" <| remember (.vanillaChart island) do
    (← get).data.vanillaChart island

/-- Whether an item is a numbered chart while charts are shuffled. -/
def isRandomizedChart (s : Session) (item : String) : Bool :=
  s.settings.isEnabled OptionName.randomizeCharts && ChartName.isNumbered item

/-- Whether charts of some kind may lead to progress items. -/
def anyProgressItemCharts : Query Bool :=
  remember .anyProgressCharts do
    let settings := (← get).settings
    pure (settings.isEnabled (progressOption .treasure) ||
      settings.isEnabled (progressOption .triforce))

/-- Whether the chart of an island may lead to a progress item. -/
def islandHasProgressItemChart (island : String) : Query Bool :=
  remember (.islandHasProgressChart island) do
    let settings := (← get).settings
    if settings.isEnabled OptionName.randomizeCharts then anyProgressItemCharts
    else do
      let chart ← vanillaChartForIsland island
      pure (settings.isEnabled (progressOption chart.kind))

/-- The names of all numbered charts, or only of those that may lead to progress items. -/
def allCharts (includeNonProgress : Bool) : Query (List String) :=
  remember (.chartList includeNonProgress) do
    let s ← get
    let shown (kind : ChartKind) := includeNonProgress || s.settings.isEnabled (progressOption kind)
    let treasure :=
      ChartName.numbered "Treasure Chart " (s.data.charts.length - ChartName.triforceCount)
    let triforce := ChartName.numbered "Triforce Chart " ChartName.triforceCount
    pure ((if shown .treasure then treasure else []) ++ if shown .triforce then triforce else [])

end Session

end SeedLogic
