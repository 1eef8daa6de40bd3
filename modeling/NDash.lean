import NDash.Shared.Machine
import NDash.Shared.RingBuffer
import NDash.Shared.Blocks
import NDash.Shared.Incremental
import NDash.Shared.Bisection
import NDash.Util
import NDash.SampleHolder
import NDash.LoadControl
import NDash.LoadControlGrants
import NDash.Extractor.InfoQueue
import NDash.Extractor.InfoQueueFifo
import NDash.Upstream.Allocator
import NDash.Extractor.RollingSampleBuffer
import NDash.Extractor.RollingSampleBufferStorage
import NDash.Extractor.RollingSampleBufferSamples
import NDash.Extractor.RollingSampleBufferDelivery
import NDash.Extractor.RollingSampleBufferInBand
import NDash.Extractor.RollingSampleBufferAccounting
import NDash.Extractor.RollingSampleBufferDiscard
import NDash.Upstream.LoaderThread
import NDash.Extractor.RollingSampleBufferQueue
import NDash.Extractor.DefaultTrackOutput
import NDash.Extractor.DefaultTrackOutputOrder
import NDash.Shared.Outcome
import NDash.Chunk.SampleQueue
import NDash.Chunk.ChunkSampleSource
import NDash.Chunk.Schedule
import NDash.Chunk.ScheduleSound
import NDash.Chunk.SampleQueueBytes
import NDash.Chunk.ScheduleAligned
import NDash.Chunk.ChunkSampleSourceSchedule
import NDash.Chunk.ChunkSampleSourceSystem
import NDash.Chunk.ChunkSampleSourceRuns
import NDash.Chunk.ChunkSampleSourceBoundaries
import NDash.Upstream.DataSpec
import NDash.Upstream.DefaultBandwidthMeter
import NDash.Extractor.ChunkIndex
import NDash.Extractor.ExtractorInterface
import NDash.Extractor.StreamParserExtractor
import NDash.Extractor.StreamParserExtractorBuffers
import NDash.Chunk.ChunkExtractorWrapper
import NDash.Chunk.ChunkExtractorWrapperSeeks
import NDash.Chunk.ContainerMediaChunk
import NDash.Chunk.InitializationChunk
import NDash.Extractor.RawCCParserExtractor
import NDash.Extractor.RawCCParserExtractorFields
import NDash.Extractor.RawCCParserExtractorCuts
import NDash.Extractor.RawCCReference
import NDash.Extractor.RawCCParserExtractorPackets
import NDash.Extractor.RawCCParserExtractorSamples
import NDash.Extractor.RawCCParserExtractorShape
import NDash.Mpd.DashSegmentIndex
import NDash.Mpd.MultiSegmentBase
import NDash.Mpd.SegmentTimeline
import NDash.Mpd.MediaPresentationDescription
import NDash.Dash.RepresentationHolder
import NDash.Dash.RepresentationHolderShift
import NDash.Dash.PeriodHolder
import NDash.Dash.PeriodHolderRefresh
import NDash.Dash.DashChunkSource
import NDash.Dash.DashChunkSourceManifest
import NDash.Dash.DashChunkSourceAdoption
import NDash.Dash.DashChunkSourceRefresh
import NDash.Dash.DashChunkSourceRange
import NDash.Dash.DashChunkSourceSeek
import NDash.Dash.DashChunkSourceEvaluation
import NDash.Dash.DashChunkSourcePlayback
import NDash.Dash.DashChunkSourceNext
import NDash.Dash.DashChunkSourceEnable
import NDash.Dash.DashChunkSourceForward
import NDash.Dash.DashChunkSourceReverse
import NDash.Dash.DashChunkSourceScan
import NDash.Util.SlidingMedian
import NDash.Util.Uuid
import NDash.Upstream.CurlDataSource
import NDash.Upstream.CurlDataSourcePipe
import NDash.Upstream.CurlDataSourceWakeups
import NDash.ManifestFetcher
import NDash.Drm.DrmSessionManager
import NDash.Drm.DrmSessionManagerBalance
import NDash.Drm.DrmSessionManagerRetries
import NDash.DashThread
import NDash.DashThreadSteps
import NDash.DashThreadFragments
import NDash.DashThreadLicenses
import NDash.DashThreadReposition
import NDash.DashThreadFresh
import NDash.DashThreadSelection
import NDash.DashThreadRate
import NDash.Extractor.RollingSampleBufferAccess
import NDash.Shared.Loop
import NDash.Shared.UriReference
import NDash.Util.UriUtil
import NDash.Shared.UriSegments
import NDash.Util.UriUtilSegments
import NDash.Util.UriUtilClimb
import NDash.Util.UriUtilRoot
import NDash.Util.UriUtilIndices
import NDash.Util.UriUtilResolve
import NDash.Shared.PullReader
import NDash.Shared.PullRules
import NDash.Shared.PullLog
import NDash.Util.MimeTypes
import NDash.Mpd.ManifestAttributes
import NDash.Mpd.ManifestParser
import NDash.Mpd.ManifestNotation
import NDash.Extractor.InfoQueueKeyframe
import NDash.SampleHolderGrowth
import NDash.Extractor.DefaultTrackOutputTimestamps
import NDash.Shared.Nearest
import NDash.Chunk.AdaptiveEvaluator
import NDash.Chunk.DemoEvaluator
import NDash.Chunk.AdaptiveEvaluatorEvaluate
import NDash.Shared.Tiling
import NDash.Mpd.FixedDuration
import NDash.Mpd.RangedUri
import NDash.Mpd.ManifestRanges
import NDash.Mpd.PeriodDurations
import NDash.Mpd.ManifestSegments
import NDash.Mpd.SegmentDivisions
import NDash.Mpd.TimelineExpansion
import NDash.Mpd.UrlTemplate
import NDash.Mpd.UrlTemplateBuild
import NDash.Mpd.SegmentTemplateTime
import NDash.Dash.DashChunkSourceBytes
import NDash.Mpd.ContentProtectionsBuilder
import NDash.Util.UriUtilQuery
import NDash.Util.UriUtilCalls
import NDash.Util.UriUtilPieces
import NDash.Util.UriUtilSafety
import NDash.Util.UriUtilSafetyCalls
import NDash.Util.UriUtilSafetyDotted
import NDash.Util.UriUtilSafetyWalks
import NDash.Chunk.SourceLifecycle
import NDash.TrackRenderer
import NDash.DashThreadLifecycle
import NDash.DashThreadLifecycleStages
import NDash.DashThreadLifecycleRuns
import NDash.DashThreadLifecycleCalls
import NDash.Chunk.SourceLifecycleRefinement
import NDash.LoadControlNotices
import NDash.Upstream.CurlRequestsRuns
import NDash.Upstream.CurlReadAll
import NDash.Extractor.FramePipeline
import NDash.Chunk.ChunkSampleSourceNoticesRuns
import NDash.Chunk.SourceLoading
