import OtelDatalake.Buffer.RetryIdentity
import OtelDatalake.Buffer.EndOfStream
import OtelDatalake.Buffer.CancelSafety
import OtelDatalake.Disk.AdmissionBudget
import OtelDatalake.Disk.Upkeep
import OtelDatalake.StarRocks.LoadSafety
import OtelDatalake.Elasticsearch.LeaseSafety
import OtelDatalake.Parquet.VariantRoundTrip
import OtelDatalake.Parquet.Sink
import OtelDatalake.Buffer.ReadinessSignal
import OtelDatalake.Buffer.DeadLetterSafety
import OtelDatalake.Buffer.VainEviction
import OtelDatalake.Wasm.ReloadAdoption
import OtelDatalake.Wasm.Backfill
import OtelDatalake.Iceberg.CommitSafety
import OtelDatalake.Parquet.UploadSafety
import OtelDatalake.Wasm.DispatchSafety
import OtelDatalake.Wasm.Abandonment
import OtelDatalake.Wasm.ExecutionSafety
import OtelDatalake.Codec.Completeness
import OtelDatalake.Codec.RemapOrder
import OtelDatalake.Codec.AttributeText
import OtelDatalake.Disk.FrameCodec
import OtelDatalake.Disk.Splitting
import OtelDatalake.Disk.Resending
import OtelDatalake.Disk.Collection
import OtelDatalake.Disk.LossyCrash
import OtelDatalake.Disk.LeaseIdentity
import OtelDatalake.Kafka.LeaseOutcome
import OtelDatalake.Parquet.VariantBounds
import OtelDatalake.Parquet.AppendLog
import OtelDatalake.Parquet.RowPlacement
import OtelDatalake.Parquet.SplitLoop
import OtelDatalake.Parquet.PlacementSafety
import OtelDatalake.Foundation.Utf8
import OtelDatalake.Foundation.AtomicUpdate
import OtelDatalake.Foundation.Registration
import OtelDatalake.Wasm.MetricRegistry
import OtelDatalake.Wasm.MetricRegistrySafety
import OtelDatalake.Parquet.FileNaming
import OtelDatalake.Parquet.FileNamingSafety
import OtelDatalake.Elasticsearch.Escaping
import OtelDatalake.Elasticsearch.DocumentText
import OtelDatalake.Iceberg.Partition
import OtelDatalake.Iceberg.PartitionSafety
import OtelDatalake.Elasticsearch.BulkRetry
import OtelDatalake.Elasticsearch.SubPayload
import OtelDatalake.Elasticsearch.WellFormed
import OtelDatalake.Elasticsearch.ChunkOrder
import OtelDatalake.Kafka.Slices
import OtelDatalake.Parquet.PartitionPath
import OtelDatalake.Foundation.Template
import OtelDatalake.Elasticsearch.IndexPattern
import OtelDatalake.Buffer.LostWakeups
import OtelDatalake.Pipeline.IngestionSafety
import OtelDatalake.Pipeline.Estimates
import OtelDatalake.Pipeline.ExitStatus
import OtelDatalake.Pipeline.DlqSafety
import OtelDatalake.Wasm.HostCallSafety
import OtelDatalake.Parquet.SignalRouterRows
import OtelDatalake.Elasticsearch.FailoverSafety
