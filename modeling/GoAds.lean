import GoAds.Wire.Stalls
import GoAds.Notification.Forgotten
import GoAds.Notification.Rollback
import GoAds.Notification.Baseline
import GoAds.Notification.Epoch
import GoAds.Notification.CycleField
import GoAds.Notification.Truthful
import GoAds.Dispatch.EarlySamples
import GoAds.Dispatch.Reaper
import GoAds.Dispatch.Ordering
import GoAds.Session.Counters
import GoAds.Session.Drops
import GoAds.Session.Flap
import GoAds.Session.Terminal
import GoAds.Symbols.Decode
import GoAds.Symbols.Leases
import GoAds.Symbols.ReloadCap
import GoAds.Heartbeat.Backoff
import GoAds.Heartbeat.Options
import GoAds.Heartbeat.Watch
import GoAds.Client.SumLayout
import GoAds.Client.BatchErrors
import GoAds.Heartbeat.Beats
import GoAds.Codec.Bounds
import GoAds.Codec.OwnWrites
import GoAds.Codec.RoundTrip
import GoAds.Codec.Times
import GoAds.Upload.Expansion
import GoAds.Discovery.Filed
import GoAds.Discovery.Enums
import GoAds.Discovery.SameMap
import GoAds.Codec.Members
