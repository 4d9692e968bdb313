import Zapdb.Runtime
import Zapdb.Binary
import Zapdb.Types
import Zapdb.Layout
import Zapdb.Marshal
import Zapdb.Unmarshal
import Zapdb.Cursor
import Zapdb.Read
import Zapdb.Refine
import Zapdb.Interface
import Zapdb.Codec
import Zapdb.Encoding
import Zapdb.Safety
import Zapdb.Expvar
import Zapdb.Metrics
import Zapdb.Registration
import Zapdb.Counting
import Zapdb.Totals
import Zapdb.Goroutines
import Zapdb.Interleaving
