import Conquest.Atlas.Distance
import Conquest.Atlas.Search
import Conquest.Board.Query
import Conquest.Tally
import Conquest.Binary32
import Conquest.Ordered
import Conquest.Decimal.Shortest
import Conquest.Json.Record
import Conquest.Config.Reader
import Conquest.Strength
import Conquest.Threat
import Conquest.Table.Supply
import Conquest.Ledger
import Conquest.Ranking
import Conquest.Recruit.Chain
import Conquest.Phase.Plan
import Conquest.Scenario.Reader
import Conquest.Scenario.Setup
import Conquest.Campaign
import Conquest.Embargo
import Conquest.Purchase.Allocation
import Conquest.Purchase.Plan
import Conquest.Deployment
import Conquest.Battle
import Conquest.Battle.Toll
import Conquest.Main
import Conquest.Lottery
import Conquest.Table.Play
import Conquest.Table.Marches
import Conquest.Table.Overflow
import Conquest.Table.Fickle
import Conquest.Ledger.Shelf
import Conquest.Ledger.Logbook
import Conquest.Proofs.Walk
import Conquest.Proofs.Choice
import Conquest.Proofs.Transfer
import Conquest.Proofs.Standing
import Conquest.Proofs.Checks
import Conquest.Proofs.Ground
import Conquest.Proofs.Regrouping
import Conquest.Proofs.Effects
import Conquest.Proofs.Play
import Conquest.Proofs.Captures
import Conquest.Proofs.Bystanders
import Conquest.Proofs.Marches
import Conquest.Proofs.Draft
import Conquest.Proofs.Planned
import Conquest.Proofs.Recruiting
import Conquest.Proofs.Voyages
import Conquest.Proofs.Desk
import Conquest.Proofs.Loads
import Conquest.Proofs.CombatMove
import Conquest.Proofs.NonCombatMove
import Conquest.Proofs.Phases
import Conquest.Proofs.Run
import Conquest.Proofs.Capacity
import Conquest.Proofs.Clashes
import Conquest.Proofs.Accounts
import Conquest.Proofs.Acceptance
import Conquest.Proofs.Peace
import Conquest.Proofs.Forks
import Conquest.Proofs.Manifest
import Conquest.Proofs.Tallies
import Conquest.Proofs.Yards
import Conquest.Proofs.Placing
import Conquest.Proofs.Berths
import Conquest.Proofs.Positions
import Conquest.Proofs.Logbooks
import Conquest.Proofs.Origins
import Conquest.Proofs.Strikes
import Conquest.Proofs.Executable
import Conquest.Proofs.Arrivals
import Conquest.Proofs.Recalls
import Conquest.Proofs.Footholds
import Conquest.Proofs.Returns
import Conquest.Proofs.Purchases
import Conquest.Proofs.Treasury
import Conquest.Proofs.Allotment
import Conquest.Proofs.Decks
import Conquest.Proofs.FirstRoute
import Conquest.Proofs.Distances
import Conquest.Proofs.Magnitude
import Conquest.Proofs.Landings
import Conquest.Proofs.Gathering
import Conquest.Proofs.Shortfalls
import Conquest.Proofs.Enlisting
import Conquest.Proofs.Quotients
import Conquest.Purchase.Till
import Conquest.Proofs.Spending
import Conquest.Proofs.Stationing
import Conquest.Proofs.Blockers
import Conquest.Proofs.Shores
import Conquest.Proofs.Consolidation
import Conquest.Proofs.Losses
import Conquest.Proofs.Rounding
import Conquest.Proofs.Amounts
import Conquest.Proofs.Strengthening
import Conquest.Threat.Muster
import Conquest.Proofs.Musters
import Conquest.Proofs.Reinforcing
import Conquest.Proofs.Invasions
import Conquest.Proofs.Registers
import Conquest.Proofs.Openings
import Conquest.Proofs.Descending
import Conquest.Proofs.Rankings
import Conquest.Proofs.Corridors
import Conquest.Proofs.Preferences
