import SeedLogic.Files.Tree
import SeedLogic.Main
import SeedLogic.Proofs.Requirement.Implication
import SeedLogic.Proofs.Requirement.Meaning
import SeedLogic.Proofs.Requirement.NormalForm
import SeedLogic.Proofs.Requirement.ImplicationOrder
import SeedLogic.Proofs.Requirement.Equivalence
import SeedLogic.Proofs.Requirement.Building
import SeedLogic.Proofs.Requirement.FirstOffence
import SeedLogic.Proofs.Session.Answers
import SeedLogic.Proofs.Session.Outcomes
import SeedLogic.Proofs.Session.Queries
import SeedLogic.Proofs.Session.Agreement
import SeedLogic.Proofs.Session.Runs
import SeedLogic.Proofs.Session.EarlierQueries
import SeedLogic.Proofs.Resolution.Completeness
import SeedLogic.Proofs.Resolution.Flattening
import SeedLogic.Proofs.Resolution.Easing
import SeedLogic.Proofs.Resolution.Counting
import SeedLogic.Proofs.Requirement.Keys
import SeedLogic.Proofs.Session.SmallKeys
import SeedLogic.Proofs.Requirement.Reading
import SeedLogic.Proofs.Requirement.Tokens
import SeedLogic.Proofs.Requirement.Rendering
import SeedLogic.Proofs.Session.EntranceMacros
import SeedLogic.Proofs.Requirement.Grammar
import SeedLogic.Proofs.Session.BossMarks
import SeedLogic.Proofs.Session.Pairing
import SeedLogic.Proofs.Session.FailureReports
import SeedLogic.Proofs.Session.Failures
import SeedLogic.Proofs.Session.BossLocations
import SeedLogic.Proofs.Requirement.FlatImplication
import SeedLogic.Proofs.Requirement.Extremes
import SeedLogic.Proofs.Requirement.Questions
import SeedLogic.Proofs.Requirement.Enclosing
import SeedLogic.Proofs.Requirement.Places
import SeedLogic.Proofs.Session.MacroTexts
import SeedLogic.Proofs.Session.CircularQueries
import SeedLogic.Proofs.Resolution.Conditionals
import SeedLogic.Proofs.Tables.FlagLists
import SeedLogic.Proofs.Session.RemainingBosses
import SeedLogic.Proofs.Tables.Lookups
import SeedLogic.Proofs.Session.PoolLists
import SeedLogic.Proofs.Session.CacheAccounting
import SeedLogic.Proofs.Requirement.CountedItems
import SeedLogic.Proofs.Requirement.Partition
import SeedLogic.Proofs.Data.Formats
import SeedLogic.Proofs.Config.Opening
