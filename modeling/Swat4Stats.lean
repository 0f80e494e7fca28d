import Swat4Stats.AdminMerges
import Swat4Stats.AdminMod
import Swat4Stats.Aggregates
import Swat4Stats.AliasRace
import Swat4Stats.Aliases
import Swat4Stats.AnnualStats
import Swat4Stats.ApiRequests
import Swat4Stats.BracketKeys
import Swat4Stats.Calendar
import Swat4Stats.ChunkedQueries
import Swat4Stats.CleanNames
import Swat4Stats.ColumnFit
import Swat4Stats.ConcurrentQueries
import Swat4Stats.CoopRanks
import Swat4Stats.CounterRace
import Swat4Stats.Database
import Swat4Stats.DottedKeys
import Swat4Stats.Encodings
import Swat4Stats.Entities
import Swat4Stats.FailureStreaks
import Swat4Stats.FormattedNames
import Swat4Stats.GameCounters
import Swat4Stats.GameIngestion
import Swat4Stats.GameOutcomes
import Swat4Stats.GameSave
import Swat4Stats.GameSchema
import Swat4Stats.Geoip
import Swat4Stats.GroupedTotals
import Swat4Stats.IpExpiry
import Swat4Stats.IpRegistry
import Swat4Stats.IspRace
import Swat4Stats.JuliaQueryString
import Swat4Stats.Leaderboards
import Swat4Stats.LegacyColumns
import Swat4Stats.LegacyWire
import Swat4Stats.Library.Cursor
import Swat4Stats.Library.GroupBy
import Swat4Stats.Library.Json
import Swat4Stats.Library.JsonRoundTrip
import Swat4Stats.Library.Keyset
import Swat4Stats.Library.Network
import Swat4Stats.Library.OrderedDict
import Swat4Stats.Library.PercentEncoding
import Swat4Stats.Library.Redirection
import Swat4Stats.Library.Regex
import Swat4Stats.Library.RegexLanguage
import Swat4Stats.Library.Retry
import Swat4Stats.Library.RowNumber
import Swat4Stats.Library.Spelled
import Swat4Stats.Library.Substitution
import Swat4Stats.Library.Table
import Swat4Stats.Library.Tally
import Swat4Stats.Library.TaskPool
import Swat4Stats.Library.Text
import Swat4Stats.Library.TopRows
import Swat4Stats.Library.Transaction
import Swat4Stats.Library.Transition
import Swat4Stats.Library.UniqueTable
import Swat4Stats.Library.Voluptuous
import Swat4Stats.Library.Watermark
import Swat4Stats.Listing
import Swat4Stats.MergeGraph
import Swat4Stats.NestedItems
import Swat4Stats.Placings
import Swat4Stats.PlayerIdentity
import Swat4Stats.PlayerNames
import Swat4Stats.PositionFrame
import Swat4Stats.Preferences
import Swat4Stats.PreferredLoadout
import Swat4Stats.ProfileFreshness
import Swat4Stats.ProfileNames
import Swat4Stats.ProfileStats
import Swat4Stats.QueryParams
import Swat4Stats.QueryPorts
import Swat4Stats.RankQueries
import Swat4Stats.Ranking
import Swat4Stats.Refresh
import Swat4Stats.RelistRace
import Swat4Stats.ReportFormats
import Swat4Stats.ReportQueue
import Swat4Stats.Schema
import Swat4Stats.SearchVector
import Swat4Stats.ServerDiscovery
import Swat4Stats.ServerMerge
import Swat4Stats.ServerQuery
import Swat4Stats.ServerRatings
import Swat4Stats.ServerSearch
import Swat4Stats.ServerStatsMerge
import Swat4Stats.ServerStatsRace
import Swat4Stats.ServerStatsRestart
import Swat4Stats.Servers
import Swat4Stats.Standings
import Swat4Stats.StatsManager
import Swat4Stats.StatsWatermark
import Swat4Stats.StatusCache
import Swat4Stats.StatusCollection
import Swat4Stats.StatusExpansion
import Swat4Stats.StatusReassembly
import Swat4Stats.StatusRoundTrip
import Swat4Stats.StatusSchema
import Swat4Stats.StoredReports
import Swat4Stats.StreamRace
import Swat4Stats.UnlistRace
import Swat4Stats.Whois
import Swat4Stats.WhoisCommand
import Swat4Stats.Xjson
