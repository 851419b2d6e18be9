import CodexMultiAuth.Commutation
import CodexMultiAuth.LockExclusion
import CodexMultiAuth.LeaseExclusion
import CodexMultiAuth.DrainFirst
import CodexMultiAuth.CredentialCarry
import CodexMultiAuth.ResetLaw
import CodexMultiAuth.SelectionOrder
import CodexMultiAuth.StoredLimits
import CodexMultiAuth.ConfigRoundTrip
import CodexMultiAuth.ForecastLaw
import CodexMultiAuth.RouteLaw
import CodexMultiAuth.ResetCreditsLaw
import CodexMultiAuth.LiveSync
import CodexMultiAuth.CliHydration
import CodexMultiAuth.PairedStores
import CodexMultiAuth.GuardianLaw
import CodexMultiAuth.AttemptsLaw
import CodexMultiAuth.RepairLaw
import CodexMultiAuth.AccountCrashes
import CodexMultiAuth.AccountLoads
import CodexMultiAuth.FileCacheLaw
import CodexMultiAuth.SessionRecovery
import CodexMultiAuth.SidebandRelay
import CodexMultiAuth.SettingsLaw
import CodexMultiAuth.UnreadStores
import CodexMultiAuth.PendingPruneLaw
import CodexMultiAuth.LoginLaw
import CodexMultiAuth.ApiRouteLaw
import CodexMultiAuth.FlaggedFiles
import CodexMultiAuth.PluginAttempts
import CodexMultiAuth.UsageScanLaw
import CodexMultiAuth.StreamDelivery
import CodexMultiAuth.ImportMerge
import CodexMultiAuth.SelectionPassLaw
import CodexMultiAuth.NativeProviderLaw
import CodexMultiAuth.TokenLedger
import CodexMultiAuth.HybridSelection
import CodexMultiAuth.AffinityRuns
import CodexMultiAuth.ToolNormal
import CodexMultiAuth.PhaseTexts
import CodexMultiAuth.SingleFlight
import CodexMultiAuth.TokenRefreshSafety
import CodexMultiAuth.MinimumWait
import CodexMultiAuth.QuotaCacheOrder
import CodexMultiAuth.PreemptiveQuotaSafety
import CodexMultiAuth.UsageLedger
import CodexMultiAuth.HashlineLaw
import CodexMultiAuth.FastSession
import CodexMultiAuth.DatedStores
