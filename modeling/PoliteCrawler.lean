import PoliteCrawler.AckedPages
import PoliteCrawler.AmortizedRuns
import PoliteCrawler.AtLeastOnce
import PoliteCrawler.Atomicity
import PoliteCrawler.AwaitedGrants
import PoliteCrawler.Banding
import PoliteCrawler.CacheFreshness
import PoliteCrawler.CacheTransparency
import PoliteCrawler.CanonicalFrontier
import PoliteCrawler.Common
import PoliteCrawler.ConcurrentStorage
import PoliteCrawler.ConsumerGroup
import PoliteCrawler.ConsumerPanics
import PoliteCrawler.ContentDeduplicator
import PoliteCrawler.ContentHash
import PoliteCrawler.CrawlCoverage
import PoliteCrawler.CrawlDelay
import PoliteCrawler.CrawlEnds
import PoliteCrawler.CrawlLimit
import PoliteCrawler.CrawlerCore
import PoliteCrawler.CrawlerDb
import PoliteCrawler.CrawlerMoves
import PoliteCrawler.CrawlerStorage
import PoliteCrawler.DatabaseReplay
import PoliteCrawler.DeploymentLedger
import PoliteCrawler.DomainRateLimiter
import PoliteCrawler.Draining
import PoliteCrawler.EntersOnce
import PoliteCrawler.EventSourcedDb
import PoliteCrawler.FifoQueues
import PoliteCrawler.FiniteWeb
import PoliteCrawler.Frontier
import PoliteCrawler.HtmlParser
import PoliteCrawler.KeyedTable
import PoliteCrawler.KeywordSearch
import PoliteCrawler.Launch
import PoliteCrawler.LaunchRefinement
import PoliteCrawler.LeafOrder
import PoliteCrawler.LearnedDelays
import PoliteCrawler.LearnedDomains
import PoliteCrawler.Ledger
import PoliteCrawler.LimiterHistory
import PoliteCrawler.LinkExtraction
import PoliteCrawler.LinkFetcher
import PoliteCrawler.Liveness
import PoliteCrawler.MatchingEnds
import PoliteCrawler.PageAcceptance
import PoliteCrawler.PageCounters
import PoliteCrawler.PartyLedger
import PoliteCrawler.PendingEvents
import PoliteCrawler.Provenance
import PoliteCrawler.PublishedPages
import PoliteCrawler.QueueService
import PoliteCrawler.ReadingOrder
import PoliteCrawler.RealPages
import PoliteCrawler.Redelivery
import PoliteCrawler.RequestBudget
import PoliteCrawler.RequestRate
import PoliteCrawler.RequestTarget
import PoliteCrawler.RestartEquivalence
import PoliteCrawler.RobotsCompliance
import PoliteCrawler.SavedEvents
import PoliteCrawler.SeenIsQueued
import PoliteCrawler.SeenUrlsFrame
import PoliteCrawler.SeparatedWords
import PoliteCrawler.Shutdown
import PoliteCrawler.SitemapReading
import PoliteCrawler.SitemapsParser
import PoliteCrawler.StorageRuns
import PoliteCrawler.StoredText
import PoliteCrawler.StreamConsumer
import PoliteCrawler.Supply
import PoliteCrawler.TaskAccounting
import PoliteCrawler.TaskConservation
import PoliteCrawler.Transition
import PoliteCrawler.Trimming
import PoliteCrawler.WeightedRuns
