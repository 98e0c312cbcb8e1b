import IgnTransport.Statistics.Basic
import IgnTransport.Statistics.Welford
import IgnTransport.Statistics.Extrema
import IgnTransport.Statistics.Summary
import IgnTransport.TopicStatistics.Basic
import IgnTransport.TopicStatistics.Samples
import IgnTransport.TopicStatistics.Dropped
import IgnTransport.TopicStatistics.Detection
import IgnTransport.TopicStatistics.Yaml
import IgnTransport.TopicStatistics.Rates
import IgnTransport.Log.QualifiedTime
