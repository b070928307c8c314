import KvmServer.Cache.GfxCache
import KvmServer.Cache.GlyphClipping
import KvmServer.Cache.GlyphSafety
import KvmServer.Codec.Avc444
import KvmServer.Codec.ClearBounds
import KvmServer.Codec.ClearSections
import KvmServer.Codec.H264
import KvmServer.Codec.MppcGuarded
import KvmServer.Codec.NcrushGuarded
import KvmServer.Codec.Nsc
import KvmServer.Codec.Planar
import KvmServer.Codec.ProgressiveSession
import KvmServer.Codec.RfxSafety
import KvmServer.Codec.XcrushParse
import KvmServer.Codec.XcrushSession
import KvmServer.Codec.ZgfxSession
import KvmServer.Core.BulkCompression
import KvmServer.Core.DrdynvcDelivery
import KvmServer.Core.FastpathStream
import KvmServer.Core.NegoRequest
import KvmServer.Core.NegoSelection
import KvmServer.Core.OrdersBounds
import KvmServer.Core.OrdersPersistence
import KvmServer.Core.SecondaryOrdersRoundTrip
import KvmServer.Core.WebsocketEnd
import KvmServer.Core.WebsocketFrames
import KvmServer.Crypto.Base64
import KvmServer.Crypto.Ber
import KvmServer.Gdi.Clipping
import KvmServer.Shadow.CaptureExact
import KvmServer.Utils.RingBufferQueue
import KvmServer.Utils.SmartcardNdr
import KvmServer.Winpr.Asn1Consumption
import KvmServer.Winpr.Asn1Der
import KvmServer.Winpr.Collections
import KvmServer.Winpr.HashTableClear
import KvmServer.Winpr.NtlmAvPairs
