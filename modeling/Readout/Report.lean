import Readout.Ranking
import Readout.Sampling

/-!
# Reports

What is shown of one drawn outcome: its count, its share, and the share as a percentage with the
number of decimals that the settings ask for.
-/

namespace Readout

/-- Settings for what is shown. -/
structure ReportSettings where
  /-- Decimals of percentages. -/
  places : Nat
  /-- Length of rankings. -/
  rankingLength : Nat
  deriving DecidableEq

/-- Two decimals, and rankings of ten. -/
def ReportSettings.standard : ReportSettings :=
  ⟨Decimal.defaultPercentPlaces, DistributionTable.defaultRankingLength⟩

/-- A drawn outcome with its percentage as text. -/
structure Report where
  sample : Sample
  percentage : String
  deriving DecidableEq

namespace Report

/-- The report of a drawn outcome. -/
def ofSample (settings : ReportSettings) (s : Sample) : Report :=
  ⟨s, Decimal.percent settings.places (s.probability Float)⟩

/-- The report on one line. -/
def text (r : Report) : String :=
  s!"{r.sample.key.text}: {r.sample.count}/{r.sample.total} ({r.percentage}%)"

end Report

end Readout
