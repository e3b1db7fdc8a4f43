import RadarFeed.Site.Table

/-!
The sites that are known without a file.
-/

namespace RadarFeed.SiteTable

/-- The sites that are known without a file. -/
def builtinSites : List Site :=
  [⟨"KAMX", "wsr88d", 25.6111, -80.4128, "USA", "FL", "Miami"⟩,
    ⟨"KATX", "wsr88d", 48.1946, -122.4957, "USA", "WA", "Seattle"⟩,
    ⟨"KFTG", "wsr88d", 39.7866, -104.5458, "USA", "CO", "Denver"⟩,
    ⟨"KFWS", "wsr88d", 32.5730, -97.3031, "USA", "TX", "Dallas/Ft. Worth"⟩,
    ⟨"KHGX", "wsr88d", 29.4719, -95.0792, "USA", "TX", "Houston/Galveston"⟩,
    ⟨"KJAX", "wsr88d", 30.4847, -81.7019, "USA", "FL", "Jacksonville"⟩,
    ⟨"KLOT", "wsr88d", 41.6045, -88.0847, "USA", "IL", "Chicago"⟩,
    ⟨"KLSX", "wsr88d", 38.6987, -90.6828, "USA", "MO", "St. Louis"⟩,
    ⟨"KMUX", "wsr88d", 37.1551, -121.8984, "USA", "CA", "San Francisco"⟩,
    ⟨"KOKX", "wsr88d", 40.8655, -72.8638, "USA", "NY", "New York City"⟩,
    ⟨"KTLX", "wsr88d", 35.3331, -97.2778, "USA", "OK", "Oklahoma City"⟩,
    ⟨"KVAX", "wsr88d", 30.8903, -83.0019, "USA", "GA", "Moody AFB"⟩,
    ⟨"PHKI", "wsr88d", 21.8938, -159.5524, "USA", "HI", "South Kauai"⟩,
    ⟨"TDFW", "tdwr", 33.0645, -96.9183, "USA", "TX", "Dallas/Ft. Worth"⟩,
    ⟨"TMCI", "tdwr", 39.4983, -94.7418, "USA", "MO", "Kansas City"⟩,
    ⟨"TSTL", "tdwr", 38.8048, -90.4887, "USA", "MO", "St. Louis"⟩]

/-- The table of the sites that are known without a file. -/
def builtin : SiteTable :=
  SiteTable.empty.extend builtinSites

end RadarFeed.SiteTable
